import MiniA64.Proofs.Machine.MemoryEffects

/-!
# What a word may change

The fields of a word tell which of the registers, the flags and the depth of calls it may change.
The general registers are its target, the second target of a pair that is loaded, a base that is
written back, and the link register of a call. The stack pointer takes part only where register 31
is a base that is written back, or the target of an addition of a constant that sets no flags.

What an instruction does is within the scope of its word. The words that are taken for pairs
although they add are counted among the pairs.
-/

namespace MiniA64

/-- What may be changed of the registers, the flags and the depth. -/
structure Scope where
  general : Reg → Prop := fun _ ↦ False
  sp : Prop := False
  flags : Prop := False
  depth : Prop := False

/-- What one scope allows is allowed by the other. -/
structure Scope.Within (inner outer : Scope) : Prop where
  general : ∀ reg, inner.general reg → outer.general reg
  sp : inner.sp → outer.sp
  flags : inner.flags → outer.flags
  depth : inner.depth → outer.depth

/-! ## The scope of an instruction -/

def Addressing.writesBack : Addressing → Bool
  | postIndex _ | preIndex _ => true
  | _ => false

def PairMode.writesBack : PairMode → Bool
  | postIndex | preIndex => true
  | _ => false

def Instruction.scope : Instruction → Scope
  | hint _ | barrier _ _ | exception .hvc _ | exception .smc _ | branchRegister .br _
  | branch false _ | branchIf _ _ | compareBranch _ _ _ _ => {}
  | exception .svc _ => { general := (· = 0) }
  | branch true _ | branchRegister .blr _ => { general := (· = Reg.link), depth := True }
  | branchRegister .ret _ => { depth := True }
  | addSubImmediate _ _ setsFlags _ _ _ rd =>
    { general := (· = rd), sp := setsFlags = false ∧ rd = Reg.special, flags := setsFlags = true }
  | addSubRegister _ _ setsFlags _ _ _ _ rd => { general := (· = rd), flags := setsFlags = true }
  | logical _ op _ _ _ _ _ rd => { general := (· = rd), flags := op = .ands }
  | moveWide _ _ _ _ rd | bitfield _ _ _ _ _ rd | extract _ _ _ _ rd | twoSource _ _ _ _ rd
  | multiplyAdd _ _ _ _ _ rd | loadLiteral _ _ rd => { general := (· = rd) }
  | loadStore transfer address rn rt =>
    { general reg := transfer.code ≠ 0 ∧ reg = rt ∨ address.writesBack = true ∧ reg = rn
      sp := address.writesBack = true ∧ rn = Reg.special }
  | pair _ load mode _ rt2 rn rt =>
    { general reg := load = true ∧ (reg = rt ∨ reg = rt2) ∨ mode.writesBack = true ∧ reg = rn
      sp := mode.writesBack = true ∧ rn = Reg.special }

/-! ## The scope of a word -/

namespace Word

/-- The word is in the group of branches, exceptions and system instructions. -/
def isControl (word : Word) : Bool := word.field 26 3 = 0b101

/-- The word branches with a link, to a displacement or to a register. -/
def isCall (word : Word) : Bool :=
  word.field 26 6 = 0b100101 ||
    (word.field 10 22 = 0b1101011000111111000000 && word.field 0 5 = 0)

def isReturn (word : Word) : Bool :=
  word.field 10 22 = 0b1101011001011111000000 && word.field 0 5 = 0

/-- The word adds or subtracts a constant. -/
def isAddSubImmediate (word : Word) : Bool := word.field 23 6 = 0b100010

/-- The word adds or subtracts with flags, or is a conjunction with flags. -/
def setsFlags (word : Word) : Bool :=
  (word.isAddSubImmediate || (word.field 24 5 = 0b01011 && !word.bit 21)) && word.bit 29 ||
    (word.field 24 5 = 0b01010 && word.field 29 2 = 0b11)

/-- The word is a pair, or it is one of the additions that are taken for a pair. -/
def isPair (word : Word) : Bool := word.field 25 5 = 0b10100 || word.isExtendedAdd

def isPairLoad (word : Word) : Bool := word.isPair && word.bit 22

/-- The word has a form with an index before or after the access. -/
def writesBack (word : Word) : Bool :=
  (word.field 24 6 = 0b111000 && !word.bit 21 && word.bit 10) || (word.isPair && word.bit 23)

/-- What the word allows to be changed. A supervisor call answers in the first register. -/
def scope (word : Word) : Scope where
  general reg :=
    word.isControl = false ∧ reg = word.field 0 5 ∨
    word.isPairLoad = true ∧ reg = word.field 10 5 ∨
    word.writesBack = true ∧ reg = word.field 5 5 ∨
    word.isCall = true ∧ reg = Reg.link ∨
    word.isSupervisorCall = true ∧ reg = 0
  sp :=
    word.isAddSubImmediate = true ∧ word.bit 29 = false ∧ word.field 0 5 = Reg.special ∨
    word.writesBack = true ∧ word.field 5 5 = Reg.special
  flags := word.setsFlags = true
  depth := word.isCall = true ∨ word.isReturn = true

end Word

/-! ## Words of instructions -/

/-- The register in the lowest field, for instructions that have a register there. -/
def Instruction.target? : Instruction → Option Reg
  | addSubImmediate _ _ _ _ _ _ rd | addSubRegister _ _ _ _ _ _ _ rd | logical _ _ _ _ _ _ _ rd
  | moveWide _ _ _ _ rd | bitfield _ _ _ _ _ rd | extract _ _ _ _ rd | twoSource _ _ _ _ rd
  | multiplyAdd _ _ _ _ _ rd | loadStore _ _ _ rd | loadLiteral _ _ rd | pair _ _ _ _ _ _ rd =>
    some rd
  | _ => none

namespace Word

variable {instruction : Instruction} {rd : Reg}

theorem field_target (target : instruction.target? = some rd) :
    instruction.encode.field 0 5 = rd := by
  cases instruction with
  | loadStore transfer address =>
    cases target
    cases address <;>
      simp (disch := decide) only [Instruction.encode, Addressing.encode, field,
        BitVec.extractLsb'_append_eq_of_add_le, BitVec.extractLsb'_eq_self, -Nat.reduceAdd]
  | _ =>
    cases target <;>
      simp (disch := decide) only [Instruction.encode, field,
        BitVec.extractLsb'_append_eq_of_add_le, BitVec.extractLsb'_eq_self, -Nat.reduceAdd]

theorem isControl_target (target : instruction.target? = some rd) :
    instruction.encode.isControl = false := by
  cases instruction with
  | loadStore transfer address =>
    cases address <;>
      simp (disch := decide) [Instruction.encode, Addressing.encode, isControl, field,
        BitVec.extractLsb'_append_eq_of_le, BitVec.extractLsb'_append_eq_of_add_le,
        -Nat.reduceAdd, -Nat.reduceSub]
  | _ =>
    cases target <;>
      simp (disch := decide) [Instruction.encode, isControl, field,
        BitVec.extractLsb'_append_eq_of_le, BitVec.extractLsb'_append_eq_of_add_le,
        -Nat.reduceAdd, -Nat.reduceSub]

theorem isCall_branch (offset : BitVec 26) :
    (Instruction.branch true offset).encode.isCall = true := by
  simp (disch := decide) [Instruction.encode, isCall, field, flag,
    BitVec.extractLsb'_append_eq_of_le, -Nat.reduceAdd, -Nat.reduceSub]

theorem isCall_branchRegister (rn : Reg) :
    (Instruction.branchRegister .blr rn).encode.isCall = true := by
  simp (disch := decide) [Instruction.encode, isCall, field, BranchRegisterOp.code,
    BitVec.extractLsb'_append_eq_of_le, BitVec.extractLsb'_append_eq_of_add_le,
    -Nat.reduceAdd, -Nat.reduceSub]

theorem isReturn_branchRegister (rn : Reg) :
    (Instruction.branchRegister .ret rn).encode.isReturn = true := by
  simp (disch := decide) [Instruction.encode, isReturn, field, BranchRegisterOp.code,
    BitVec.extractLsb'_append_eq_of_le, BitVec.extractLsb'_append_eq_of_add_le,
    -Nat.reduceAdd, -Nat.reduceSub]

section

variable (width : Width) (op : AddSubOp) (setFlags : Bool) (rn rd : Reg)

theorem isAddSubImmediate_encode (shifted : Bool) (immediate : BitVec 12) :
    (Instruction.addSubImmediate width op setFlags shifted immediate rn rd).encode.isAddSubImmediate
      = true := by
  simp (disch := decide) [Instruction.encode, isAddSubImmediate, field,
    BitVec.extractLsb'_append_eq_of_le, BitVec.extractLsb'_append_eq_of_add_le,
    -Nat.reduceAdd, -Nat.reduceSub]

theorem bit_addSubImmediate (shifted : Bool) (immediate : BitVec 12) :
    (Instruction.addSubImmediate width op setFlags shifted immediate rn rd).encode.bit 29 =
      setFlags := by
  simp (disch := decide) only [Instruction.encode, bit, getLsbD_append_high, getLsbD_append_low,
    -Nat.reduceAdd, -Nat.reduceSub]
  exact getElem_flag setFlags

theorem setsFlags_addSubRegister (shift : LinearShift) (amount : BitVec 6) (rm : Reg) :
    (Instruction.addSubRegister width op true shift amount rm rn rd).encode.setsFlags = true := by
  simp (disch := decide) only [Instruction.encode, setsFlags, isAddSubImmediate, field, bit,
    getLsbD_append_high, getLsbD_append_low, BitVec.extractLsb'_append_eq_of_le,
    BitVec.extractLsb'_append_eq_of_add_le, -Nat.reduceAdd, -Nat.reduceSub]
  simp

theorem setsFlags_logical (invert : Bool) (shift : ShiftKind) (amount : BitVec 6) (rm : Reg) :
    (Instruction.logical width .ands invert shift amount rm rn rd).encode.setsFlags = true := by
  simp (disch := decide) [Instruction.encode, setsFlags, field, LogicalOp.code,
    BitVec.extractLsb'_append_eq_of_le, BitVec.extractLsb'_append_eq_of_add_le,
    -Nat.reduceAdd, -Nat.reduceSub]

end

theorem field_base (transfer : Transfer) (address : Addressing) (rn rt : Reg) :
    (Instruction.loadStore transfer address rn rt).encode.field 5 5 = rn := by
  cases address <;>
    simp (disch := decide) only [Instruction.encode, Addressing.encode, field,
      BitVec.extractLsb'_append_eq_of_le, BitVec.extractLsb'_append_eq_of_add_le,
      -Nat.reduceAdd, -Nat.reduceSub] <;>
    exact BitVec.extractLsb'_eq_self

theorem writesBack_loadStore (transfer : Transfer) {address : Addressing} (rn rt : Reg)
    (back : address.writesBack = true) :
    (Instruction.loadStore transfer address rn rt).encode.writesBack = true := by
  cases address with
  | postIndex | preIndex =>
    simp (disch := decide) only [Instruction.encode, Addressing.encode, writesBack, field, bit,
      getLsbD_append_high, getLsbD_append_low, BitVec.extractLsb'_append_eq_of_le,
      BitVec.extractLsb'_append_eq_of_add_le, -Nat.reduceAdd, -Nat.reduceSub]
    rfl
  | _ => cases back

section

variable (width : Width) (load : Bool) (mode : PairMode) (offset : BitVec 7) (rt2 rn rt : Reg)

theorem isPair_encode :
    (Instruction.pair width load mode offset rt2 rn rt).encode.isPair = true := by
  simp (disch := decide) [Instruction.encode, isPair, field, BitVec.extractLsb'_append_eq_of_le,
    BitVec.extractLsb'_append_eq_of_add_le, -Nat.reduceAdd, -Nat.reduceSub]

theorem bit_load : (Instruction.pair width load mode offset rt2 rn rt).encode.bit 22 = load := by
  simp (disch := decide) only [Instruction.encode, bit, getLsbD_append_high, getLsbD_append_low,
    -Nat.reduceAdd, -Nat.reduceSub]
  exact getElem_flag load

theorem bit_mode :
    (Instruction.pair width load mode offset rt2 rn rt).encode.bit 23 = mode.writesBack := by
  simp (disch := decide) only [Instruction.encode, bit, getLsbD_append_high, getLsbD_append_low,
    -Nat.reduceAdd, -Nat.reduceSub]
  cases mode <;> rfl

theorem field_second :
    (Instruction.pair width load mode offset rt2 rn rt).encode.field 10 5 = rt2 := by
  simp (disch := decide) [Instruction.encode, field, BitVec.extractLsb'_append_eq_of_le,
    BitVec.extractLsb'_append_eq_of_add_le, -Nat.reduceAdd, -Nat.reduceSub]

theorem field_pairBase :
    (Instruction.pair width load mode offset rt2 rn rt).encode.field 5 5 = rn := by
  simp (disch := decide) [Instruction.encode, field, BitVec.extractLsb'_append_eq_of_le,
    BitVec.extractLsb'_append_eq_of_add_le, -Nat.reduceAdd, -Nat.reduceSub]

end

end Word

/-- The word of an instruction allows what the instruction does. -/
theorem Instruction.scope_encode (instruction : Instruction) :
    instruction.scope.Within instruction.encode.scope := by
  -- The target of an instruction is in the lowest field of its word.
  have target (rd : Reg) (known : instruction.target? = some rd) (reg : Reg) (same : reg = rd) :
      instruction.encode.scope.general reg :=
    .inl ⟨Word.isControl_target known, same.trans (Word.field_target known).symm⟩
  cases instruction with
  | hint | barrier | branchIf | compareBranch => exact ⟨nofun, nofun, nofun, nofun⟩
  | exception op number =>
    cases op with
    | svc =>
      have call := Word.isSupervisorCall_encode number
      exact ⟨fun _ first ↦ .inr (.inr (.inr (.inr ⟨call, first⟩))), nofun, nofun, nofun⟩
    | hvc | smc => exact ⟨nofun, nofun, nofun, nofun⟩
  | branch link offset =>
    cases link with
    | false => exact ⟨nofun, nofun, nofun, nofun⟩
    | true =>
      have call := Word.isCall_branch offset
      exact ⟨fun _ link ↦ .inr (.inr (.inr (.inl ⟨call, link⟩))), nofun, nofun, fun _ ↦ .inl call⟩
  | branchRegister op rn =>
    cases op with
    | br => exact ⟨nofun, nofun, nofun, nofun⟩
    | blr =>
      have call := Word.isCall_branchRegister rn
      exact ⟨fun _ link ↦ .inr (.inr (.inr (.inl ⟨call, link⟩))), nofun, nofun, fun _ ↦ .inl call⟩
    | ret => exact ⟨nofun, nofun, nofun, fun _ ↦ .inr (Word.isReturn_branchRegister rn)⟩
  | addSubImmediate width op setsFlags shifted immediate rn rd =>
    have immediates := Word.isAddSubImmediate_encode width op setsFlags rn rd shifted immediate
    have bit := Word.bit_addSubImmediate width op setsFlags rn rd shifted immediate
    refine ⟨target rd rfl, fun ⟨clear, special⟩ ↦ .inl ⟨immediates, bit.trans clear, ?_⟩,
      fun sets ↦ ?_, nofun⟩
    · exact (Word.field_target rfl).trans special
    · show Word.setsFlags _ = true
      rw [Word.setsFlags, immediates, bit, sets]
      rfl
  | addSubRegister width op setsFlags shift amount rm rn rd =>
    refine ⟨target rd rfl, nofun, ?_, nofun⟩
    rintro rfl
    exact Word.setsFlags_addSubRegister ..
  | logical width op invert shift amount rm rn rd =>
    refine ⟨target rd rfl, nofun, ?_, nofun⟩
    rintro rfl
    exact Word.setsFlags_logical ..
  | moveWide _ _ _ _ rd | bitfield _ _ _ _ _ rd | extract _ _ _ _ rd | twoSource _ _ _ _ rd
  | multiplyAdd _ _ _ _ _ rd | loadLiteral _ _ rd => exact ⟨target rd rfl, nofun, nofun, nofun⟩
  | loadStore transfer address rn rt =>
    have base := Word.field_base transfer address rn rt
    refine ⟨?_, fun ⟨back, special⟩ ↦ .inr ⟨Word.writesBack_loadStore transfer rn rt back,
      base.trans special⟩, nofun, nofun⟩
    rintro reg (⟨-, loaded⟩ | ⟨back, same⟩)
    · exact target rt rfl reg loaded
    · exact .inr (.inr (.inl ⟨Word.writesBack_loadStore transfer rn rt back, same.trans base.symm⟩))
  | pair width load mode offset rt2 rn rt =>
    have pair := Word.isPair_encode width load mode offset rt2 rn rt
    have loads := Word.bit_load width load mode offset rt2 rn rt
    have second := Word.field_second width load mode offset rt2 rn rt
    have base := Word.field_pairBase width load mode offset rt2 rn rt
    have writes (back : mode.writesBack = true) :
        (Instruction.pair width load mode offset rt2 rn rt).encode.writesBack = true := by
      rw [Word.writesBack, pair, Word.bit_mode, back]
      exact Bool.or_true _
    refine ⟨?_, fun ⟨back, special⟩ ↦ .inr ⟨writes back, base.trans special⟩, nofun, nofun⟩
    rintro reg (⟨set, first | other⟩ | ⟨back, same⟩)
    · exact target rt rfl reg first
    · refine .inr (.inl ⟨?_, other.trans second.symm⟩)
      rw [Word.isPairLoad, pair, loads, set]
      rfl
    · exact .inr (.inr (.inl ⟨writes back, same.trans base.symm⟩))

open Decoding in
/-- A word allows what is done for it, also where it is taken for a pair. -/
theorem Word.scope_of_decode {word : Word} {instruction : Instruction}
    (decoded : decode word = .ok instruction) : instruction.scope.Within word.scope := by
  cases extended : word.isExtendedAdd with
  | false =>
    obtain rfl := Instruction.encode_of_decode decoded extended
    exact instruction.scope_encode
  | true =>
    cases decoded.symm.trans (decode_eq_pair extended)
    have family : word.field 24 7 = 0b0101011 :=
      of_decide_eq_true (Bool.and_eq_true_iff.mp extended).1
    have data : word.isControl = false := by
      rw [isControl, ← @Word.extractLsb'_field word 24 7 2 3 (by decide), family]
      rfl
    have pair : word.isPair = true := by simp [isPair, extended]
    have back : (PairMode.ofCode (word.field 23 2)).writesBack = word.bit 23 := by
      have codes : ∀ code : BitVec 2, (PairMode.ofCode code).writesBack = code.getLsbD 0 := by
        decide
      rw [codes, field, BitVec.getLsbD_extractLsb']
      rfl
    have writes (indexed : (PairMode.ofCode (word.field 23 2)).writesBack = true) :
        word.writesBack = true := by
      rw [writesBack, pair, ← back, indexed]
      exact Bool.or_true _
    refine ⟨?_, fun stack ↦ .inr ⟨writes stack.1, stack.2⟩, False.elim, False.elim⟩
    rintro reg (⟨load, rfl | rfl⟩ | ⟨indexed, rfl⟩)
    · exact .inl ⟨data, rfl⟩
    · exact .inr (.inl ⟨by rw [isPairLoad, pair, load]; rfl, rfl⟩)
    · exact .inr (.inr (.inl ⟨writes indexed, rfl⟩))

/-- An addition without an allocated form, which loads a pair and writes its base back. -/
example :
    decode 0x2be10820 = .ok (.pair .w32 true .preIndex 0x42 2 1 0) ∧
      (0x2be10820 : Word).scope.general 2 ∧ (0x2be10820 : Word).scope.general 1 :=
  ⟨rfl, .inr (.inl (by decide)), .inr (.inr (.inl (by decide)))⟩

end MiniA64
