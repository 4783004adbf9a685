import MiniA64.Proofs.Assembly.Gaps.DataProcessing
import MiniA64.Proofs.Assembly.Trial.Dispatch

/-!
# Gaps for all fields

For each slot of an instruction there is a statement with a gap for the number, which is accepted
with zero there. It selects the instruction but for the number.
-/

namespace MiniA64

namespace Gap

open Selection

/-! ## Statements that are accepted -/

/-- A statement is accepted with a number in its gap, and the word has a slot for the number. -/
structure Accepted (gap : Gap) (mnemonic : Mnemonic) (site : Site) (operands : List Operand)
    (index : Nat) (number : Int) (slot : Slot) (instruction : Instruction) : Prop where
  holds : ∃ operand, operands[index]? = some operand ∧ gap.Holds site operand number
  accepted : Trial.select mnemonic site (operands.map Operand.node) = .ok instruction
  filled : gap.slot? (index + 1 == operands.length) mnemonic instruction = some slot

/-- Some statement is accepted with a number in the slot, and its word is as the base outside. -/
def Opens (site : Site) (base : Instruction) (slot : Slot) : Prop :=
  ∃ gap mnemonic operands index number instruction,
    Accepted gap mnemonic site operands index number slot instruction ∧
      slot.Fills base.encode instruction.encode number

variable {site : Site} {slot : Slot} {width : Width} {rd rn rm : Reg}

/-- A trial has a result if the step that it follows has it. -/
theorem trial_eq_ok_iff {mnemonic : Mnemonic} {operands : List Operand}
    {instruction : Instruction} :
    Trial.select mnemonic site (operands.map Operand.node) = .ok instruction ↔
      mnemonic.select site operands = .ok instruction := by
  rw [Trial.follows_iff.mp (Trial.follows_select mnemonic site operands), Trial.settle]
  cases mnemonic.select site operands with
  | error diagnostic => exact iff_of_false nofun nofun
  | ok selected => rw [mapError_ok, Except.ok.injEq, Except.ok.injEq]

theorem opens_of_family {β : Type} {make : β → Instruction} {value : β → Int}
    (family : slot.Family make value) (part base : β) (gap : Gap) (mnemonic : Mnemonic)
    (operands : List Operand) (index : Nat)
    (holds : ∃ operand, operands[index]? = some operand ∧ gap.Holds site operand (value part))
    (accepted : mnemonic.select site operands = .ok (make part))
    (filled : gap.slot? (index + 1 == operands.length) mnemonic (make part) = some slot) :
    Opens site (make base) slot :=
  ⟨gap, mnemonic, operands, index, _, _, ⟨holds, trial_eq_ok_iff.mpr accepted, filled⟩,
    family.fills part base⟩

/-! ## Operands that are written somewhere -/

def constantOf (value : Int) : Operand := ⟨0, default, .immediate value⟩

def shiftOf (kind : ShiftKind) (amount : Int) : Operand := ⟨0, default, .shift kind amount⟩

def dataOf (reg : Reg) (width : Width) : Operand := ⟨0, default, .register (reg.dataName width)⟩

def stackOf (reg : Reg) (width : Width) : Operand := ⟨0, default, .register (reg.stackName width)⟩

def memoryOf (base : Reg) (form : MemoryForm) : Operand := ⟨0, default, .memory ⟨base, form⟩⟩

/-! ## Calls and branches -/

theorem opens_exception (op : ExceptionOp) (number : BitVec 16) :
    Opens site (.exception op number) (.unsigned 5 16 (2 ^ 16) 1) :=
  opens_of_family (Instruction.family_exception op) 0 number constant (.exception op)
    [constantOf 0] 0 ⟨_, rfl, rfl⟩ rfl rfl

theorem opens_branch (link : Bool) (offset : BitVec 26) :
    Opens site (.branch link offset) (.signed 0 26 4) :=
  opens_of_family (Instruction.family_branch link) 0 offset target (.branch link)
    [constantOf 0] 0 ⟨_, rfl, rfl⟩ rfl rfl

theorem opens_branchIf (condition : Condition) (offset : BitVec 19) :
    Opens site (.branchIf condition offset) (.signed 5 19 4) :=
  opens_of_family (Instruction.family_branchIf condition) 0 offset target
    (.branchIf condition) [constantOf 0] 0 ⟨_, rfl, rfl⟩ rfl rfl

theorem opens_compareBranch (nonzero : Bool) (offset : BitVec 19) :
    Opens site (.compareBranch width nonzero offset rd) (.signed 5 19 4) :=
  opens_of_family (Instruction.family_compareBranch width nonzero rd) 0 offset target
    (.compareBranch nonzero) [dataOf rd width, constantOf 0] 1 ⟨_, rfl, rfl⟩
    (by simp [Mnemonic.select, compareBranch, dataOf, constantOf, branchOffset,
      RegisterOperand.width, RegisterOperand.number]) rfl

/-! ## Transfers -/

theorem opens_loadLiteral (load : LiteralLoad) (offset : BitVec 19) (rt : Reg) :
    Opens site (.loadLiteral load offset rt) (.signed 5 19 4) := by
  obtain ⟨name, width, form, known, loads⟩ : ∃ name width form,
      name.transfer? width = some form ∧ literalLoad? name width = some load := by
    cases load with
    | word => exact ⟨.ldr, .w32, _, rfl, rfl⟩
    | doubleWord => exact ⟨.ldr, .w64, _, rfl, rfl⟩
    | signedWord => exact ⟨.ldrsw, .w64, _, rfl, rfl⟩
  refine opens_of_family (Instruction.family_loadLiteral load rt) 0 offset target
    (.transfer name) [dataOf rt width, constantOf 0] 1 ⟨_, rfl, rfl⟩ ?_ rfl
  simp [Mnemonic.select, transfer, dataOf, constantOf, branchOffset, known, loads,
    RegisterOperand.width, RegisterOperand.number]

/-- A memory operand of a transfer that is selected to an address. -/
theorem select_transfer {transfer : Transfer} {address : Addressing} {form : MemoryForm}
    (rn rt : Reg)
    (same : addressing (TransferName.ofTransfer transfer).1 transfer default form = .ok address) :
    (Mnemonic.transfer (TransferName.ofTransfer transfer).1).select site
      [dataOf rt (TransferName.ofTransfer transfer).2, memoryOf rn form] =
      .ok (.loadStore transfer address rn rt) := by
  simp [Mnemonic.select, Selection.transfer, dataOf, memoryOf, RegisterOperand.width,
    RegisterOperand.number, TransferName.transfer?_ofTransfer, same]

theorem opens_loadStore (transfer : Transfer) (address : Addressing) (rn rt : Reg)
    (among : slot ∈ (Instruction.loadStore transfer address rn rt).slots) :
    Opens site (.loadStore transfer address rn rt) slot := by
  cases address with
  | index => cases among
  | scaled offset =>
    obtain rfl := List.mem_singleton.mp among
    refine opens_of_family (Instruction.family_scaledOffset rn transfer rt) 0 offset (.offset rn) _
      [dataOf rt _, memoryOf rn (.offset 0)] 1 ⟨_, rfl, ?_⟩ (select_transfer rn rt ?_) rfl
    · simp [Holds, memoryOf]
    · have taken : scaledOffset (TransferName.ofTransfer transfer).1 transfer default 0 =
          .ok 0 := by
        simpa using scaledOffset_mul _ transfer 0
      exact congrArg (Except.map Addressing.scaled) taken
  | unscaled offset =>
    obtain rfl := List.mem_singleton.mp among
    refine opens_of_family (Instruction.family_byteOffset rn transfer rt (.inl rfl)) 0 offset
      (.offset rn) (.unscaledTransfer (TransferName.ofTransfer transfer).1)
      [dataOf rt (TransferName.ofTransfer transfer).2, memoryOf rn (.offset 0)] 1
      ⟨_, rfl, rfl⟩ ?_ rfl
    simp [Mnemonic.select, unscaledTransfer, dataOf, memoryOf, RegisterOperand.width,
      RegisterOperand.number, TransferName.transfer?_ofTransfer, byteOffset]
  | preIndex offset =>
    obtain rfl := List.mem_singleton.mp among
    exact opens_of_family (Instruction.family_byteOffset rn transfer rt (.inr (.inl rfl))) 0 offset
      (.preIndex rn) _ [dataOf rt _, memoryOf rn (.preIndex 0)] 1 ⟨_, rfl, rfl⟩
      (select_transfer rn rt rfl) rfl
  | postIndex offset =>
    obtain rfl := List.mem_singleton.mp among
    exact opens_of_family (Instruction.family_byteOffset rn transfer rt (.inr (.inr rfl))) 0 offset
      (.postIndex rn) _ [dataOf rt _, memoryOf rn (.postIndex 0)] 1 ⟨_, rfl, rfl⟩
      (select_transfer rn rt rfl) rfl

theorem opens_pair (load : Bool) (mode : PairMode) (offset : BitVec 7) (rt2 rn rt : Reg)
    (among : slot ∈ (Instruction.pair width load mode offset rt2 rn rt).slots) :
    Opens site (.pair width load mode offset rt2 rn rt) slot := by
  have opens (gap : Gap) (form : MemoryForm) (known : pairForm? form = some (mode, 0))
      (holds : gap.Holds site (memoryOf rn form) 0)
      (filled : gap.slot? true (.pair load) (.pair width load mode 0 rt2 rn rt) =
        some (.signed 15 7 (width.bits / 8))) :
      Opens site (.pair width load mode offset rt2 rn rt) (.signed 15 7 (width.bits / 8)) := by
    refine opens_of_family
      (Instruction.family_pairOffset width rn rt load mode rt2 (width.bits / 8)) 0 offset gap
      (.pair load) [dataOf rt width, dataOf rt2 width, memoryOf rn form] 2
      ⟨_, rfl, by simpa using holds⟩ ?_ filled
    have taken : pairOffset width default 0 = .ok 0 := by simpa using pairOffset_mul width 0
    simp [Mnemonic.select, Selection.pair, dataOf, memoryOf, sameWidth, RegisterOperand.width,
      RegisterOperand.number, pairTarget?, known, taken]
  cases mode with
  | plainOffset => cases among
  | offset =>
    obtain rfl := List.mem_singleton.mp among
    exact opens (.offset rn) (.offset 0) rfl rfl rfl
  | preIndex =>
    obtain rfl := List.mem_singleton.mp among
    exact opens (.preIndex rn) (.preIndex 0) rfl rfl rfl
  | postIndex =>
    obtain rfl := List.mem_singleton.mp among
    exact opens (.postIndex rn) (.postIndex 0) rfl rfl rfl

/-! ## Data processing -/

theorem opens_addSubImmediate (op : AddSubOp) (setFlags scaled : Bool) (immediate : BitVec 12)
    (among : slot ∈ (Instruction.addSubImmediate width op setFlags scaled immediate rn rd).slots) :
    Opens site (.addSubImmediate width op setFlags scaled immediate rn rd) slot := by
  let destination := if setFlags then dataOf rd width else stackOf rd width
  have select (value : Int) (shift : Option Operand) (found : Option ShiftOperand)
      (kind : shift? shift = .ok found) :
      (Mnemonic.addSub op setFlags).select site
          (destination :: stackOf rn width :: constantOf value :: shift.toList) =
        addSubImmediate op setFlags width rd rn value found site.location := by
    cases setFlags <;>
      simp [Mnemonic.select, addSub, destination, dataOf, stackOf, constantOf, kind, firstSource,
        sameWidth, RegisterOperand.width, RegisterOperand.number]
  simp only [Instruction.slots, List.mem_cons, List.not_mem_nil, or_false] at among
  obtain rfl | rfl | rfl := among
  · exact opens_of_family (Instruction.family_arithmetic width rd rn op setFlags) (op, false, 0)
      (op, scaled, immediate) constant (.addSub op setFlags)
      [destination, stackOf rn width, constantOf 0] 2
      ⟨_, rfl, by simp [Holds, constantOf, Slot.withSign, OperandKind.constant?]⟩
      (select 0 none none rfl) rfl
  · refine opens_of_family (Instruction.family_shifted width rd rn op setFlags scaled) (op, 0)
      (op, immediate) constant (.addSub op setFlags)
      [destination, stackOf rn width, constantOf 0, shiftOf .lsl (if scaled then 12 else 0)] 2
      ⟨_, rfl, by simp [Holds, constantOf, Slot.withSign, OperandKind.constant?]⟩
      ((select 0 (some _) _ rfl).trans ?_) rfl
    cases scaled <;> rfl
  · refine opens_of_family (Instruction.family_scaled width rd rn op setFlags immediate) false
      scaled (amount .lsl) (.addSub op setFlags)
      [destination, stackOf rn width, constantOf immediate.toNat, shiftOf .lsl 0] 3
      ⟨_, rfl, rfl⟩ ((select _ (some _) _ rfl).trans ?_) rfl
    have below := immediate.isLt
    have natural : ¬(immediate.toNat : Int) < 0 := by omega
    have small : ¬(4095 : Int) < immediate.toNat := by omega
    simp [addSubImmediate, arithmeticField, natural, small]

/-- An amount below the width is the number of a bit. -/
theorem exists_bitNumber {amount : BitVec 6} (below : amount.toNat < width.bits) :
    ∃ index : Fin width.bits, bitNumber index = amount :=
  ⟨⟨amount.toNat, below⟩, by simp [bitNumber]⟩

theorem opens_addSubRegister (op : AddSubOp) (setFlags : Bool) (shift : LinearShift)
    (amount : BitVec 6)
    (among : slot ∈ (Instruction.addSubRegister width op setFlags shift amount rm rn rd).slots) :
    Opens site (.addSubRegister width op setFlags shift amount rm rn rd) slot := by
  simp only [Instruction.slots] at among
  split at among
  · rename_i below
    obtain rfl := List.mem_singleton.mp among
    obtain ⟨index, rfl⟩ := exists_bitNumber below
    refine opens_of_family (Instruction.family_addSubRegister width rd rn op setFlags shift rm)
      ⟨0, width.bits_pos⟩ index (.amount shift.kind) (.addSub op setFlags)
      [dataOf rd width, dataOf rn width, dataOf rm width, shiftOf shift.kind 0] 3 ⟨_, rfl, rfl⟩
      ?_ rfl
    have taken : linearShift width (some ⟨shift.kind, 0, default⟩) = .ok (shift, 0) := by
      cases shift <;> cases width <;> rfl
    simp [Mnemonic.select, addSub, addSubRegister, dataOf, shiftOf, shift?, firstSource, sameWidth,
      RegisterOperand.width, RegisterOperand.number, arrange?, taken, bitNumber]
  · cases among

theorem opens_logical (op : LogicalOp) (invert : Bool) (kind : ShiftKind) (amount : BitVec 6)
    (among : slot ∈ (Instruction.logical width op invert kind amount rm rn rd).slots) :
    Opens site (.logical width op invert kind amount rm rn rd) slot := by
  simp only [Instruction.slots] at among
  split at among
  · rename_i named
    obtain ⟨below, named⟩ := named
    obtain rfl := List.mem_singleton.mp among
    obtain ⟨index, rfl⟩ := exists_bitNumber below
    obtain ⟨name, known⟩ := Option.isSome_iff_exists.mp named
    refine opens_of_family (Instruction.family_logical width rd rn op invert kind rm)
      ⟨0, width.bits_pos⟩ index (.amount kind) (.logical name)
      [dataOf rd width, dataOf rn width, dataOf rm width, shiftOf kind 0] 3 ⟨_, rfl, rfl⟩ ?_ rfl
    have taken : anyShift width (some ⟨kind, 0, default⟩) = .ok (kind, 0) := by
      cases width <;> rfl
    simp [Mnemonic.select, Selection.logical, logicalRegister, dataOf, shiftOf, shift?, firstSource,
      sameWidth, RegisterOperand.width, RegisterOperand.number, arrange?, taken, bitNumber,
      Instruction.operation_of_ofOperation? known]
  · cases among

theorem opens_moveWide (op : MoveWideOp) (window : Fin (width.bits / 16)) (immediate : BitVec 16)
    (among : slot ∈ (Instruction.moveWide width op window immediate rd).slots) :
    Opens site (.moveWide width op window immediate rd) slot := by
  have select (window : Fin (width.bits / 16)) (immediate : BitVec 16) :
      (Mnemonic.moveWide op).select site
          [dataOf rd width, constantOf immediate.toNat,
            shiftOf .lsl (window.val * (16 : Nat) : Int)] =
        .ok (.moveWide width op window immediate rd) := by
    have below := immediate.isLt
    have small : ¬((immediate.toNat : Int) < 0 ∨ (0xFFFF : Int) < immediate.toNat) := by omega
    have taken : Selection.window width
        (some ⟨.lsl, (window.val * (16 : Nat) : Int), default⟩) = .ok window :=
      window_eq_ok_iff.mpr ⟨rfl, rfl⟩
    simp only [Mnemonic.select, Selection.moveWide, comparands?, dataOf, constantOf, shiftOf,
      dataRegister_dataName, value_immediate, ok_bind, if_neg small, shift?, BitVec.ofInt_natCast,
      BitVec.ofNat_toNat, BitVec.setWidth_eq, pure_eq]
    -- The type of the window depends on the width that the register names.
    have sized : width = RegisterOperand.width ⟨rd.dataName width, default⟩ :=
      (rd.width_dataName width).symm
    have numbered : RegisterOperand.number ⟨rd.dataName width, default⟩ = rd :=
      rd.number_dataName width
    rw [numbered]
    generalize RegisterOperand.width ⟨rd.dataName width, default⟩ = named at sized ⊢
    subst sized
    rw [taken]
    rfl
  simp only [Instruction.slots, List.mem_cons, List.not_mem_nil, or_false] at among
  obtain rfl | rfl := among
  · exact opens_of_family (Instruction.family_moveWide width rd op window) 0 immediate constant
      (.moveWide op)
      [dataOf rd width, constantOf 0, shiftOf .lsl (window.val * (16 : Nat) : Int)] 1
      ⟨_, rfl, rfl⟩
      (select window 0) rfl
  · have lowest : 0 < width.bits / 16 := by cases width <;> decide
    exact opens_of_family (Instruction.family_window width rd op immediate) ⟨0, lowest⟩ window
      (amount .lsl) (.moveWide op)
      [dataOf rd width, constantOf immediate.toNat, shiftOf .lsl 0] 2 ⟨_, rfl, rfl⟩
      (select ⟨0, lowest⟩ immediate) rfl

/-- A shift by zero. -/
theorem select_shift (kind : ShiftKind) :
    (Mnemonic.shift kind).select site [dataOf rd width, dataOf rn width, constantOf 0] =
      .ok (shiftImmediate kind width ⟨0, width.bits_pos⟩ rn rd) := by
  have taken : shiftAmount width site.location 0 = .ok ⟨0, width.bits_pos⟩ :=
    dif_pos ⟨Int.le_refl 0, Int.natCast_pos.mpr width.bits_pos⟩
  simp [Mnemonic.select, shift, binary?, dataOf, constantOf, sameWidth, RegisterOperand.width,
    RegisterOperand.number, taken]

theorem opens_shiftImmediate (kind : ShiftKind) (amount : Fin width.bits)
    (filled : constant.slot? true (.shift kind) (shiftImmediate kind width amount rn rd) =
      some slot) : Opens site (shiftImmediate kind width amount rn rd) slot :=
  opens_of_family (family_shiftImmediate filled) ⟨0, width.bits_pos⟩ amount constant (.shift kind)
    [dataOf rd width, dataOf rn width, constantOf 0] 2 ⟨_, rfl, rfl⟩ (select_shift kind)
    (by cases kind <;> exact filled)

theorem opens_bitfield (signed : Bool) (rotate last : Fin width.bits)
    (among : slot ∈ (Instruction.bitfield width signed rotate last rn rd).slots) :
    Opens site (.bitfield width signed rotate last rn rd) slot := by
  simp only [Instruction.slots, List.mem_append] at among
  obtain among | among := among
  -- A shift to the right ends at the highest bit, and one to the left begins after the last bit.
  · split at among
    · rename_i whole
      obtain rfl := List.mem_singleton.mp among
      obtain rfl : last = ⟨width.bits - 1, Nat.sub_lt width.bits_pos Nat.one_pos⟩ :=
        Fin.ext (Nat.eq_sub_of_add_eq whole)
      cases signed with
      | false => exact opens_shiftImmediate .lsr rotate rfl
      | true => exact opens_shiftImmediate .asr rotate rfl
    · cases among
  · split at among
    · rename_i turned
      obtain ⟨rfl, turned⟩ := turned
      obtain rfl := List.mem_singleton.mp among
      have below := last.isLt
      let part : Fin width.bits := ⟨width.bits - 1 - last.val, by omega⟩
      have same : Instruction.bitfield width false rotate last rn rd =
          shiftImmediate .lsl width part rn rd := by
        have left : width.bits - (width.bits - 1 - last.val) = last.val + 1 := by omega
        have right : width.bits - 1 - (width.bits - 1 - last.val) = last.val := by omega
        simp only [shiftImmediate, part, left, right, ← turned]
      rw [same]
      exact opens_shiftImmediate .lsl part rfl
    · cases among

theorem opens_extract (low : Fin width.bits)
    (among : slot ∈ (Instruction.extract width low rm rn rd).slots) :
    Opens site (.extract width low rm rn rd) slot := by
  simp only [Instruction.slots] at among
  split at among
  · rename_i same
    subst same
    obtain rfl := List.mem_singleton.mp among
    exact opens_shiftImmediate .ror low rfl
  · cases among

/-! ## All instructions -/

/-- Each slot of an instruction is that of a gap. -/
theorem opens_of_mem_slots {base : Instruction} (among : slot ∈ base.slots) :
    Opens site base slot := by
  cases base with
  | addSubImmediate => exact opens_addSubImmediate _ _ _ _ among
  | addSubRegister => exact opens_addSubRegister _ _ _ _ among
  | logical => exact opens_logical _ _ _ _ among
  | moveWide => exact opens_moveWide _ _ _ among
  | bitfield => exact opens_bitfield _ _ _ among
  | extract => exact opens_extract _ among
  | loadStore => exact opens_loadStore _ _ _ _ among
  | pair => exact opens_pair _ _ _ _ _ _ among
  | exception => exact List.mem_singleton.mp among ▸ opens_exception _ _
  | branch => exact List.mem_singleton.mp among ▸ opens_branch _ _
  | branchIf => exact List.mem_singleton.mp among ▸ opens_branchIf _ _
  | compareBranch => exact List.mem_singleton.mp among ▸ opens_compareBranch _ _
  | loadLiteral => exact List.mem_singleton.mp among ▸ opens_loadLiteral _ _ _
  | _ => cases among

end Gap

end MiniA64
