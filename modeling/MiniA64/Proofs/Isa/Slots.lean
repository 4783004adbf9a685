import MiniA64.Isa.Mnemonic
import MiniA64.Proofs.Isa.Reading

/-!
# Numbers in words

A slot says which bits of a word are for a number, and how the number is read from them. A number
is represented beside a word if some word has the number in the slot and the bits of the given
word outside. The instructions of a family differ in a part that one slot reads: their words have
the same bits outside, and whatever number can be read, one of them has it.
-/

namespace MiniA64

/-- The bits that are for a number, and the number that a word has there, if it has one. -/
structure Slot where
  covers : Nat → Prop
  read : Word → Option Int

namespace Slot

/-- The word has the number, and all the other bits of the base. -/
structure Fills (slot : Slot) (base word : Word) (number : Int) : Prop where
  read_eq : slot.read word = some number
  outside : ∀ i, ¬slot.covers i → word.getLsbD i = base.getLsbD i

/-- Some word has the number, and all the other bits of the base. -/
def Represents (slot : Slot) (base : Word) (number : Int) : Prop :=
  ∃ word, slot.Fills base word number

/-! ## The slots of instructions -/

/-- A field that holds one of the first natural numbers, in units of a scale. -/
def unsigned (low width count scale : Nat) : Slot where
  covers i := low ≤ i ∧ i < low + width
  read word :=
    let index := (word.field low width).toNat
    if index < count then some (index * scale) else none

/-- A field that holds a number with its sign, in units of a scale. -/
def signed (low width scale : Nat) : Slot where
  covers i := low ≤ i ∧ i < low + width
  read word := some ((word.field low width).toInt * scale)

/-- A number is added as it is, and its negative by the opposite operation. -/
def withSign (op actual : AddSubOp) (magnitude : Nat) : Int :=
  if actual = op then magnitude else -magnitude

/-- The constant of an addition or a subtraction, with its sign in the bit of the operation. -/
def arithmetic (op : AddSubOp) : Slot where
  covers i := i = 30 ∨ i = 22 ∨ 10 ≤ i ∧ i < 22
  read word := some (withSign op (.ofBit (word.bit 30))
    ((word.field 10 12).toNat * if word.bit 22 then 4096 else 1))

/-- The same constant where it is written with a shift, which is not part of the number. -/
def shifted (op : AddSubOp) : Slot where
  covers i := i = 30 ∨ 10 ≤ i ∧ i < 22
  read word := some (withSign op (.ofBit (word.bit 30)) (word.field 10 12).toNat)

/-- The amount of a shift to the left, which a move of a bit field has in two fields. -/
def leftShift (width : Width) : Slot where
  covers i := 10 ≤ i ∧ i < 22
  read word :=
    let last := (word.field 10 6).toNat
    if last < width.bits ∧ (word.field 16 6).toNat = (last + 1) % width.bits then
      some (width.bits - 1 - last)
    else none

/-! ## Families of instructions -/

/-- The instructions that differ in what a slot reads. -/
structure Family {β : Type} (slot : Slot) (make : β → Instruction) (value : β → Int) :
    Prop where
  read_eq : ∀ part, slot.read (make part).encode = some (value part)
  outside : ∀ part other i, ¬slot.covers i →
    (make part).encode.getLsbD i = (make other).encode.getLsbD i
  onto : ∀ word number, slot.read word = some number → ∃ part, value part = number

namespace Family

variable {β : Type} {slot : Slot} {make : β → Instruction} {value : β → Int}

theorem fills (family : slot.Family make value) (part base : β) :
    slot.Fills (make base).encode (make part).encode (value part) :=
  ⟨family.read_eq part, family.outside part base⟩

theorem represents_iff (family : slot.Family make value) (base : β) (number : Int) :
    slot.Represents (make base).encode number ↔ ∃ part, value part = number := by
  constructor
  · rintro ⟨word, fills⟩
    exact family.onto word number fills.read_eq
  · rintro ⟨part, rfl⟩
    exact ⟨_, family.fills part base⟩

end Family

theorem family_unsigned {β : Type} {make : β → Instruction} {index : β → Nat}
    {low width count scale : Nat}
    (field : ∀ part, ((make part).encode.field low width).toNat = index part)
    (below : ∀ part, index part < count) (onto : ∀ number < count, ∃ part, index part = number)
    (outside : ∀ part other i, ¬(low ≤ i ∧ i < low + width) →
      (make part).encode.getLsbD i = (make other).encode.getLsbD i) :
    (unsigned low width count scale).Family make fun part ↦ index part * scale where
  read_eq part := by
    simp only [unsigned, field, if_pos (below part)]
  outside := outside
  onto word number read := by
    simp only [unsigned] at read
    split at read
    · rename_i inside
      obtain ⟨part, same⟩ := onto _ inside
      exact ⟨part, by rw [same]; exact Option.some.inj read⟩
    · cases read

theorem family_signed {low width scale : Nat} {make : BitVec width → Instruction}
    (field : ∀ part, (make part).encode.field low width = part)
    (outside : ∀ part other i, ¬(low ≤ i ∧ i < low + width) →
      (make part).encode.getLsbD i = (make other).encode.getLsbD i) :
    (signed low width scale).Family make fun part ↦ part.toInt * scale where
  read_eq part := by simp only [signed, field]
  outside := outside
  onto word number read := ⟨_, Option.some.inj read⟩

end Slot

/-! ## Additions of constants -/

namespace Instruction

open Slot

variable (width : Width) (rd rn : Reg)

section

variable (op : AddSubOp) (setFlags scaled : Bool) (immediate : BitVec 12)

theorem bit_addSubImmediate_op : AddSubOp.ofBit
    ((addSubImmediate width op setFlags scaled immediate rn rd).encode.bit 30) = op := by
  simp (disch := decide) only [encode, Word.bit, getLsbD_append_high, getLsbD_append_low,
    -Nat.reduceAdd, -Nat.reduceSub]
  exact AddSubOp.ofBit_bit op

theorem bit_addSubImmediate_scaled :
    (addSubImmediate width op setFlags scaled immediate rn rd).encode.bit 22 = scaled := by
  simp (disch := decide) only [encode, Word.bit, getLsbD_append_high, getLsbD_append_low,
    -Nat.reduceAdd, -Nat.reduceSub]
  exact getElem_flag scaled

theorem field_addSubImmediate :
    (addSubImmediate width op setFlags scaled immediate rn rd).encode.field 10 12 = immediate := by
  simp (disch := decide) only [encode, Word.field, BitVec.extractLsb'_append_eq_of_le,
    BitVec.extractLsb'_append_eq_of_add_le, -Nat.reduceAdd, -Nat.reduceSub]
  exact BitVec.extractLsb'_eq_self

/-- The constant may be turned around and may be scaled. -/
theorem family_arithmetic :
    (arithmetic op).Family
      (fun part : AddSubOp × Bool × BitVec 12 ↦
        addSubImmediate width part.1 setFlags part.2.1 part.2.2 rn rd)
      fun part ↦ withSign op part.1 (part.2.2.toNat * if part.2.1 then 4096 else 1) where
  read_eq part := by
    simp only [arithmetic, bit_addSubImmediate_op, bit_addSubImmediate_scaled,
      field_addSubImmediate]
  outside part other i free := by
    simp only [arithmetic] at free
    simp only [encode, BitVec.getLsbD_append]
    grind
  onto word number read :=
    ⟨⟨.ofBit (word.bit 30), word.bit 22, word.field 10 12⟩, Option.some.inj read⟩

/-- The constant may be turned around. -/
theorem family_shifted :
    (shifted op).Family
      (fun part : AddSubOp × BitVec 12 ↦
        addSubImmediate width part.1 setFlags scaled part.2 rn rd)
      fun part ↦ withSign op part.1 part.2.toNat where
  read_eq part := by
    simp only [shifted, bit_addSubImmediate_op, field_addSubImmediate]
  outside part other i free := by
    simp only [shifted] at free
    simp only [encode, BitVec.getLsbD_append]
    grind
  onto word number read := ⟨⟨.ofBit (word.bit 30), word.field 10 12⟩, Option.some.inj read⟩

/-- Whether a constant is scaled counts as an amount: none, or twelve bits. -/
theorem family_scaled :
    (unsigned 22 1 2 12).Family
      (fun scaled : Bool ↦ addSubImmediate width op setFlags scaled immediate rn rd)
      fun scaled ↦ scaled.toNat * (12 : Nat) := by
  refine family_unsigned (fun scaled ↦ ?_) (fun scaled ↦ by cases scaled <;> decide)
    (fun number below ↦ ?_) fun part other i free ↦ ?_
  · have field :
        (addSubImmediate width op setFlags scaled immediate rn rd).encode.field 22 1 =
          flag scaled := by
      simp (disch := decide) only [encode, Word.field, BitVec.extractLsb'_append_eq_of_le,
        BitVec.extractLsb'_append_eq_of_add_le, -Nat.reduceAdd, -Nat.reduceSub]
      exact BitVec.extractLsb'_eq_self
    rw [field]
    exact BitVec.toNat_ofBool scaled
  · obtain rfl | rfl : number = 0 ∨ number = 1 := by omega
    · exact ⟨false, rfl⟩
    · exact ⟨true, rfl⟩
  · simp only [encode, BitVec.getLsbD_append]
    grind

end

/-! ## Amounts of shifts -/

theorem toNat_bitNumber (index : Fin width.bits) : (bitNumber index).toNat = index.val := by
  have below : index.val < 64 := Nat.lt_of_lt_of_le index.isLt (by cases width <;> decide)
  rw [bitNumber, BitVec.toNat_ofNat, Nat.mod_eq_of_lt below]

/-- A family of instructions with the number of a bit in one field. -/
theorem family_bitNumber {make : Fin width.bits → Instruction} {low : Nat}
    (field : ∀ amount, (make amount).encode.field low 6 = bitNumber amount)
    (outside : ∀ part other i, ¬(low ≤ i ∧ i < low + 6) →
      (make part).encode.getLsbD i = (make other).encode.getLsbD i) :
    (unsigned low 6 width.bits 1).Family make fun amount ↦ (amount.val : Int) * (1 : Nat) :=
  family_unsigned (fun amount ↦ by rw [field, toNat_bitNumber]) Fin.isLt
    (fun number below ↦ ⟨⟨number, below⟩, rfl⟩) outside

theorem family_addSubRegister (op : AddSubOp) (setFlags : Bool) (shift : LinearShift) (rm : Reg) :
    (unsigned 10 6 width.bits 1).Family
      (fun amount : Fin width.bits ↦
        addSubRegister width op setFlags shift (bitNumber amount) rm rn rd)
      fun amount ↦ amount.val * (1 : Nat) := by
  refine family_bitNumber width (fun amount ↦ ?_) fun part other i free ↦ ?_
  · simp (disch := decide) only [encode, Word.field, BitVec.extractLsb'_append_eq_of_le,
      BitVec.extractLsb'_append_eq_of_add_le, -Nat.reduceAdd, -Nat.reduceSub]
    exact BitVec.extractLsb'_eq_self
  · simp only [encode, BitVec.getLsbD_append]
    grind

theorem family_logical (op : LogicalOp) (invert : Bool) (shift : ShiftKind) (rm : Reg) :
    (unsigned 10 6 width.bits 1).Family
      (fun amount : Fin width.bits ↦
        logical width op invert shift (bitNumber amount) rm rn rd)
      fun amount ↦ amount.val * (1 : Nat) := by
  refine family_bitNumber width (fun amount ↦ ?_) fun part other i free ↦ ?_
  · simp (disch := decide) only [encode, Word.field, BitVec.extractLsb'_append_eq_of_le,
      BitVec.extractLsb'_append_eq_of_add_le, -Nat.reduceAdd, -Nat.reduceSub]
    exact BitVec.extractLsb'_eq_self
  · simp only [encode, BitVec.getLsbD_append]
    grind

/-- A rotation to the right. -/
theorem family_extract (rm : Reg) :
    (unsigned 10 6 width.bits 1).Family
      (fun amount : Fin width.bits ↦ extract width amount rm rn rd)
      fun amount ↦ amount.val * (1 : Nat) := by
  refine family_bitNumber width (fun amount ↦ ?_) fun part other i free ↦ ?_
  · simp (disch := decide) only [encode, Word.field, BitVec.extractLsb'_append_eq_of_le,
      BitVec.extractLsb'_append_eq_of_add_le, -Nat.reduceAdd, -Nat.reduceSub]
    exact BitVec.extractLsb'_eq_self
  · simp only [encode, BitVec.getLsbD_append]
    grind

section

variable (signed : Bool) (rotate last : Fin width.bits)

theorem field_bitfield_rotate :
    (bitfield width signed rotate last rn rd).encode.field 16 6 = bitNumber rotate := by
  simp (disch := decide) only [encode, Word.field, BitVec.extractLsb'_append_eq_of_le,
    BitVec.extractLsb'_append_eq_of_add_le, -Nat.reduceAdd, -Nat.reduceSub]
  exact BitVec.extractLsb'_eq_self

theorem field_bitfield_last :
    (bitfield width signed rotate last rn rd).encode.field 10 6 = bitNumber last := by
  simp (disch := decide) only [encode, Word.field, BitVec.extractLsb'_append_eq_of_le,
    BitVec.extractLsb'_append_eq_of_add_le, -Nat.reduceAdd, -Nat.reduceSub]
  exact BitVec.extractLsb'_eq_self

/-- A shift to the right. -/
theorem family_rotate :
    (unsigned 16 6 width.bits 1).Family
      (fun amount : Fin width.bits ↦ bitfield width signed amount last rn rd)
      fun amount ↦ amount.val * (1 : Nat) := by
  refine family_bitNumber width (fun amount ↦ field_bitfield_rotate ..) fun part other i free ↦ ?_
  simp only [encode, BitVec.getLsbD_append]
  grind

end

/-! ## Wide constants -/

/-- A family of instructions with a natural number in one field. -/
theorem family_natural {bits low scale : Nat} {make : BitVec bits → Instruction}
    (field : ∀ number, (make number).encode.field low bits = number)
    (outside : ∀ part other i, ¬(low ≤ i ∧ i < low + bits) →
      (make part).encode.getLsbD i = (make other).encode.getLsbD i) :
    (unsigned low bits (2 ^ bits) scale).Family make fun number ↦ number.toNat * scale :=
  family_unsigned (fun number ↦ by rw [field]) BitVec.isLt
    (fun number below ↦ ⟨BitVec.ofNat bits number,
      by rw [BitVec.toNat_ofNat, Nat.mod_eq_of_lt below]⟩) outside

theorem family_moveWide (op : MoveWideOp) (window : Fin (width.bits / 16)) :
    (unsigned 5 16 (2 ^ 16) 1).Family (fun number ↦ moveWide width op window number rd)
      fun number ↦ number.toNat * (1 : Nat) := by
  refine family_natural (fun number ↦ ?_) fun part other i free ↦ ?_
  · simp (disch := decide) only [encode, Word.field, BitVec.extractLsb'_append_eq_of_le,
      BitVec.extractLsb'_append_eq_of_add_le, -Nat.reduceAdd, -Nat.reduceSub]
    exact BitVec.extractLsb'_eq_self
  · simp only [encode, BitVec.getLsbD_append]
    grind

theorem family_window (op : MoveWideOp) (immediate : BitVec 16) :
    (unsigned 21 2 (width.bits / 16) 16).Family
      (fun window : Fin (width.bits / 16) ↦ moveWide width op window immediate rd)
      fun window ↦ window.val * (16 : Nat) := by
  refine family_unsigned (fun window ↦ ?_) Fin.isLt (fun number below ↦ ⟨⟨number, below⟩, rfl⟩)
    fun part other i free ↦ ?_
  · have field : (moveWide width op window immediate rd).encode.field 21 2 =
        BitVec.ofNat 2 window.val := by
      simp (disch := decide) only [encode, Word.field, BitVec.extractLsb'_append_eq_of_le,
        BitVec.extractLsb'_append_eq_of_add_le, -Nat.reduceAdd, -Nat.reduceSub]
      exact BitVec.extractLsb'_eq_self
    rw [field, BitVec.toNat_ofNat]
    exact MoveWideOp.window_mod window
  · simp only [encode, BitVec.getLsbD_append]
    grind

theorem family_exception (op : ExceptionOp) :
    (unsigned 5 16 (2 ^ 16) 1).Family (exception op) fun number ↦ number.toNat * (1 : Nat) := by
  refine family_natural (fun number ↦ ?_) fun part other i free ↦ ?_
  · simp (disch := decide) only [encode, Word.field, BitVec.extractLsb'_append_eq_of_le,
      BitVec.extractLsb'_append_eq_of_add_le, -Nat.reduceAdd, -Nat.reduceSub]
    exact BitVec.extractLsb'_eq_self
  · simp only [encode, BitVec.getLsbD_append]
    grind

/-! ## Displacements -/

theorem family_branch (link : Bool) :
    (signed 0 26 4).Family (branch link) fun offset ↦ offset.toInt * (4 : Nat) := by
  refine family_signed (fun offset ↦ ?_) fun part other i free ↦ ?_
  · simp (disch := decide) only [encode, Word.field, BitVec.extractLsb'_append_eq_of_add_le,
      -Nat.reduceAdd, -Nat.reduceSub]
    exact BitVec.extractLsb'_eq_self
  · simp only [encode, BitVec.getLsbD_append]
    grind

theorem family_branchIf (condition : Condition) :
    (signed 5 19 4).Family (branchIf condition) fun offset ↦ offset.toInt * (4 : Nat) := by
  refine family_signed (fun offset ↦ ?_) fun part other i free ↦ ?_
  · simp (disch := decide) only [encode, Word.field, BitVec.extractLsb'_append_eq_of_le,
      BitVec.extractLsb'_append_eq_of_add_le, -Nat.reduceAdd, -Nat.reduceSub]
    exact BitVec.extractLsb'_eq_self
  · simp only [encode, BitVec.getLsbD_append]
    grind

theorem family_compareBranch (nonzero : Bool) (rt : Reg) :
    (signed 5 19 4).Family (fun offset ↦ compareBranch width nonzero offset rt)
      fun offset ↦ offset.toInt * (4 : Nat) := by
  refine family_signed (fun offset ↦ ?_) fun part other i free ↦ ?_
  · simp (disch := decide) only [encode, Word.field, BitVec.extractLsb'_append_eq_of_le,
      BitVec.extractLsb'_append_eq_of_add_le, -Nat.reduceAdd, -Nat.reduceSub]
    exact BitVec.extractLsb'_eq_self
  · simp only [encode, BitVec.getLsbD_append]
    grind

theorem family_loadLiteral (load : LiteralLoad) (rt : Reg) :
    (signed 5 19 4).Family (fun offset ↦ loadLiteral load offset rt)
      fun offset ↦ offset.toInt * (4 : Nat) := by
  refine family_signed (fun offset ↦ ?_) fun part other i free ↦ ?_
  · simp (disch := decide) only [encode, Word.field, BitVec.extractLsb'_append_eq_of_le,
      BitVec.extractLsb'_append_eq_of_add_le, -Nat.reduceAdd, -Nat.reduceSub]
    exact BitVec.extractLsb'_eq_self
  · simp only [encode, BitVec.getLsbD_append]
    grind

/-! ## Offsets of transfers -/

variable (transfer : Transfer) (rt : Reg)

theorem family_scaledOffset :
    (unsigned 10 12 (2 ^ 12) transfer.byteCount).Family
      (fun offset ↦ loadStore transfer (.scaled offset) rn rt)
      fun offset ↦ offset.toNat * transfer.byteCount := by
  refine family_natural (fun offset ↦ ?_) fun part other i free ↦ ?_
  · simp (disch := decide) only [encode, Addressing.encode, Word.field,
      BitVec.extractLsb'_append_eq_of_le, BitVec.extractLsb'_append_eq_of_add_le, -Nat.reduceAdd,
      -Nat.reduceSub]
    exact BitVec.extractLsb'_eq_self
  · simp only [encode, Addressing.encode, BitVec.getLsbD_append]
    grind

/-- An offset in bytes: without a change of the base, or with one before or after the access. -/
theorem family_byteOffset {address : BitVec 9 → Addressing}
    (form : address = .unscaled ∨ address = .preIndex ∨ address = .postIndex) :
    (signed 12 9 1).Family (fun offset ↦ loadStore transfer (address offset) rn rt)
      fun offset ↦ offset.toInt * (1 : Nat) := by
  rcases form with rfl | rfl | rfl <;>
    refine family_signed (fun offset ↦ ?_) fun part other i free ↦ ?_
  case inl.refine_1 | inr.inl.refine_1 | inr.inr.refine_1 =>
    simp (disch := decide) only [encode, Addressing.encode, Word.field,
      BitVec.extractLsb'_append_eq_of_le, BitVec.extractLsb'_append_eq_of_add_le, -Nat.reduceAdd,
      -Nat.reduceSub]
    exact BitVec.extractLsb'_eq_self
  case inl.refine_2 | inr.inl.refine_2 | inr.inr.refine_2 =>
    simp only [encode, Addressing.encode, BitVec.getLsbD_append]
    grind

theorem family_pairOffset (load : Bool) (mode : PairMode) (rt2 : Reg) (scale : Nat) :
    (signed 15 7 scale).Family (fun offset ↦ pair width load mode offset rt2 rn rt)
      fun offset ↦ offset.toInt * scale := by
  refine family_signed (fun offset ↦ ?_) fun part other i free ↦ ?_
  · simp (disch := decide) only [encode, Word.field, BitVec.extractLsb'_append_eq_of_le,
      BitVec.extractLsb'_append_eq_of_add_le, -Nat.reduceAdd, -Nat.reduceSub]
    exact BitVec.extractLsb'_eq_self
  · simp only [encode, BitVec.getLsbD_append]
    grind

/-! ## The slots of an instruction -/

/-- The slots of the numbers that a statement may put into the instruction. -/
def slots : Instruction → List Slot
  | exception _ _ => [.unsigned 5 16 (2 ^ 16) 1]
  | addSubImmediate _ op _ _ _ _ _ => [.arithmetic op, .shifted op, .unsigned 22 1 2 12]
  | addSubRegister width _ _ _ amount _ _ _ =>
    if amount.toNat < width.bits then [.unsigned 10 6 width.bits 1] else []
  | logical width op invert _ amount _ _ _ =>
    if amount.toNat < width.bits ∧ (LogicalName.ofOperation? op invert).isSome then
      [.unsigned 10 6 width.bits 1]
    else []
  | moveWide width _ _ _ _ => [.unsigned 5 16 (2 ^ 16) 1, .unsigned 21 2 (width.bits / 16) 16]
  | bitfield width signed rotate last _ _ =>
    (if last.val + 1 = width.bits then [.unsigned 16 6 width.bits 1] else []) ++
      if signed = false ∧ rotate.val = (last.val + 1) % width.bits then [.leftShift width] else []
  | extract width _ rm rn _ => if rm = rn then [.unsigned 10 6 width.bits 1] else []
  | branch _ _ => [.signed 0 26 4]
  | branchIf _ _ | compareBranch _ _ _ _ | loadLiteral _ _ _ => [.signed 5 19 4]
  | loadStore transfer (.scaled _) _ _ => [.unsigned 10 12 (2 ^ 12) transfer.byteCount]
  | loadStore _ (.unscaled _) _ _ | loadStore _ (.preIndex _) _ _
  | loadStore _ (.postIndex _) _ _ =>
    [.signed 12 9 1]
  | pair _ _ .plainOffset _ _ _ _ => []
  | pair width _ _ _ _ _ _ => [.signed 15 7 (width.bits / 8)]
  | _ => []

end Instruction

end MiniA64
