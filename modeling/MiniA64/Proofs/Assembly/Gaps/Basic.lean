import MiniA64.Proofs.Assembly.Checks
import MiniA64.Proofs.DataProcessing.Forms
import MiniA64.Proofs.Disassembly.DataProcessing
import MiniA64.Proofs.Disassembly.Transfers
import MiniA64.Proofs.Isa.Slots
import MiniA64.Proofs.Transfers.Execution

/-!
# Numbers in the gaps of statements

A statement in which one number is left out has a gap, for a constant, the way to a target, the
amount of a shift or the offset of a memory operand. A statement that is accepted with some number
in its gap is accepted with just the numbers that the field of the gap represents, and refused with
all others. The word has the number in its field, and outside the bits that it has with any number.
-/

namespace MiniA64

theorem SymbolTable.resolve_of_value? {table : SymbolTable} {name : String} {location : Location}
    {value : Int} (bound : table.value? name = some value) :
    table.resolve name location = .ok value := by
  obtain ⟨symbol, found, rfl⟩ := Option.map_eq_some_iff.mp bound
  rw [resolve, found]

/-- What is left out of a statement. -/
inductive Gap
  | constant
  | target
  | amount (kind : ShiftKind)
  | offset (base : Reg)
  | preIndex (base : Reg)
  | postIndex (base : Reg)
  deriving DecidableEq, Repr

namespace Gap

/-- The operand puts a number into the gap. -/
def Holds (gap : Gap) (site : Site) (operand : Operand) (number : Int) : Prop :=
  match gap with
  | constant => operand.kind.constant? site.symbols = some number
  | target => operand.kind.displacement? site = some number
  | amount kind => operand.kind = .shift kind number
  | offset base => operand.kind = .memory ⟨base, .offset number⟩
  | preIndex base => operand.kind = .memory ⟨base, .preIndex number⟩
  | postIndex base => operand.kind = .memory ⟨base, .postIndex number⟩

/--
The slot that a gap fills, for a mnemonic, a gap that is or is not in the last
operand, and the instruction that is selected with some number in the gap.
-/
def slot? (gap : Gap) (last : Bool) (mnemonic : Mnemonic) (instruction : Instruction) :
    Option Slot :=
  match gap, mnemonic, instruction with
  | constant, .addSub op _, _ | constant, .compare op, _ =>
    some (if last then .arithmetic op else .shifted op)
  | constant, .shift .lsl, .bitfield width _ _ _ _ _ => some (.leftShift width)
  | constant, .shift _, .bitfield width _ _ _ _ _ => some (.unsigned 16 6 width.bits 1)
  | constant, .shift _, .extract width _ _ _ _ => some (.unsigned 10 6 width.bits 1)
  | constant, .moveWide _, _ | constant, .exception _, _ => some (.unsigned 5 16 (2 ^ 16) 1)
  | target, .branch _, _ => some (.signed 0 26 4)
  | target, .branchIf _, _ | target, .compareBranch _, _ | target, .transfer _, _ =>
    some (.signed 5 19 4)
  | amount _, .addSub _ _, .addSubImmediate _ _ _ _ _ _ _
  | amount _, .compare _, .addSubImmediate _ _ _ _ _ _ _ => some (.unsigned 22 1 2 12)
  | amount _, .addSub _ _, .addSubRegister width _ _ _ _ _ _ _
  | amount _, .compare _, .addSubRegister width _ _ _ _ _ _ _
  | amount _, .negate, .addSubRegister width _ _ _ _ _ _ _
  | amount _, .test, .logical width _ _ _ _ _ _ _
  | amount _, .logical _, .logical width _ _ _ _ _ _ _
  | amount _, .invert, .logical width _ _ _ _ _ _ _ => some (.unsigned 10 6 width.bits 1)
  | amount _, .moveWide _, .moveWide width _ _ _ _ => some (.unsigned 21 2 (width.bits / 16) 16)
  | offset _, .transfer _, .loadStore transfer _ _ _ =>
    some (.unsigned 10 12 (2 ^ 12) transfer.byteCount)
  | preIndex _, .transfer _, _ | postIndex _, .transfer _, _ | offset _, .unscaledTransfer _, _ =>
    some (.signed 12 9 1)
  | offset _, .pair _, .pair width _ _ _ _ _ _ | preIndex _, .pair _, .pair width _ _ _ _ _ _
  | postIndex _, .pair _, .pair width _ _ _ _ _ _ => some (.signed 15 7 (width.bits / 8))
  | _, _, _ => none

/--
A statement with a gap takes just the numbers that the slot represents beside the word of a base,
and its word has the number in the slot and is that of the base outside.
-/
structure Exact (gap : Gap) (site : Site) (slot : Slot) (base : Instruction)
    (statement : Operand → Selected Instruction) : Prop where
  accepts : ∀ operand number, gap.Holds site operand number →
    slot.Represents base.encode number → ∃ instruction, statement operand = .ok instruction
  fills : ∀ operand number instruction, gap.Holds site operand number →
    statement operand = .ok instruction → slot.Fills base.encode instruction.encode number

section

variable {gap : Gap} {site : Site} {slot : Slot} {base : Instruction} {operand : Operand}
  {number : Int} {statement : Operand → Selected Instruction}

/-- The statements that select the instructions of a family with the value of their part. -/
theorem exact_of_family {β : Type} {make : β → Instruction} {value : β → Int}
    (family : slot.Family make value)
    (sound : ∀ operand number instruction, gap.Holds site operand number →
      statement operand = .ok instruction → ∃ part, make part = instruction ∧ value part = number)
    (complete : ∀ operand part, gap.Holds site operand (value part) →
      ∃ instruction, statement operand = .ok instruction)
    (holds : gap.Holds site operand number) (accepted : statement operand = .ok base) :
    gap.Exact site slot base statement := by
  obtain ⟨start, rfl, -⟩ := sound operand number base holds accepted
  constructor
  · intro operand number holds represented
    obtain ⟨part, rfl⟩ := (family.represents_iff start number).mp represented
    exact complete operand part holds
  · intro operand number instruction holds accepted
    obtain ⟨part, rfl, rfl⟩ := sound operand number instruction holds accepted
    exact family.fills part start

/-- The same where the part is found from its value. -/
theorem exact_of_iff {β : Type} {make : β → Instruction} {value : β → Int}
    (family : slot.Family make value)
    (select : ∀ operand number instruction, gap.Holds site operand number →
      (statement operand = .ok instruction ↔ ∃ part, make part = instruction ∧ value part = number))
    (holds : gap.Holds site operand number) (accepted : statement operand = .ok base) :
    gap.Exact site slot base statement :=
  exact_of_family family (fun _ _ _ holds ↦ (select _ _ _ holds).mp)
    (fun _ part holds ↦ ⟨make part, (select _ _ _ holds).mpr ⟨part, rfl, rfl⟩⟩) holds accepted

/-- The operand of a gap is not a register. -/
theorem Holds.registerOf?_eq (holds : gap.Holds site operand number) :
    Selection.registerOf? operand = none := by
  unfold Selection.registerOf?
  split
  · rename_i name kind
    cases gap <;> rw [Holds, kind] at holds <;> cases holds
  · rfl

theorem Holds.ne_register (holds : gap.Holds site operand number) {name : RegisterName} :
    operand.kind ≠ .register name := by
  intro kind
  cases gap <;> rw [Holds, kind] at holds <;> cases holds

theorem Holds.isShift_eq (holds : constant.Holds site operand number) :
    Selection.isShift operand = false :=
  DataProcessing.isShift_eq_false holds

theorem Holds.value_eq {what : Expected} (holds : constant.Holds site operand number) :
    Selection.value site operand what = .ok number := by
  cases kind : operand.kind with
  | immediate value =>
    rw [Holds, kind] at holds
    cases holds
    simp only [Selection.value, kind]
  | symbol name =>
    rw [Holds, kind] at holds
    have bound : site.symbols.value? name = some number := holds
    simp only [Selection.value, kind]
    exact SymbolTable.resolve_of_value? bound
  | _ =>
    rw [Holds, kind] at holds
    cases holds

end

end Gap

/-! ## Numbers that the fields take -/

namespace Selection

open Gap

variable {site : Site} {width : Width} {location : Location} {operand : Operand} {number : Int}

theorem shiftAmount_eq_ok_iff {index : Fin width.bits} :
    shiftAmount width location number = .ok index ↔ (index.val : Int) = number :=
  ⟨fun accepted ↦ (shiftAmount_ok accepted).symm, fun same ↦ same ▸ shiftAmount_val location⟩

theorem byteOffset_eq_ok_iff {field : BitVec 9} {slot : ImmediateSlot} :
    byteOffset location number slot = .ok field ↔ field.toInt = number :=
  ⟨Transfers.byteOffset_ok, fun same ↦ same ▸ byteOffset_toInt field slot⟩

theorem scaledOffset_eq_ok_iff {name : TransferName} {transfer : Transfer} {field : BitVec 12} :
    scaledOffset name transfer location number = .ok field ↔
      (field.toNat * transfer.byteCount : Int) = number := by
  rw [← Int.natCast_mul]
  exact ⟨Transfers.scaledOffset_ok, fun same ↦ same ▸ scaledOffset_mul name transfer field⟩

theorem pairOffset_eq_ok_iff {field : BitVec 7} :
    pairOffset width location number = .ok field ↔
      field.toInt * (width.bits / 8 : Nat) = number :=
  ⟨Transfers.pairOffset_ok, fun same ↦ same ▸ pairOffset_mul width field⟩

theorem window_eq_ok_iff {kind : ShiftKind} {window : Fin (width.bits / 16)} :
    Selection.window width (some ⟨kind, number, location⟩) = .ok window ↔
      kind = .lsl ∧ (window.val * (16 : Nat) : Int) = number := by
  constructor
  · intro accepted
    have place := DataProcessing.window_ok accepted
    obtain ⟨rfl, rfl⟩ := Prod.mk.inj place
    exact ⟨rfl, by push_cast; omega⟩
  · rintro ⟨rfl, rfl⟩
    have below := window.isLt
    have inside : ShiftKind.lsl = .lsl ∧ (window.val * (16 : Nat) : Int) % 16 = 0 ∧
        0 ≤ (window.val * (16 : Nat) : Int) ∧ (window.val * (16 : Nat) : Int) < width.bits :=
      ⟨rfl, by omega, by omega, by cases width <;> simp only [Width.bits] at * <;> omega⟩
    rw [Selection.window, dif_pos inside]
    congr 1
    apply Fin.ext
    dsimp only
    omega

/-- A natural number for a field of sixteen bits. -/
theorem ofInt_toNat_of_range (range : ¬(number < 0 ∨ 0xFFFF < number)) :
    ((BitVec.ofInt 16 number).toNat : Int) = number := by
  rw [BitVec.toNat_ofInt]
  omega

theorem branchOffset_eq_ok_iff {bits : Nat} {offset : BitVec bits} (some : 0 < bits)
    (holds : target.Holds site operand number) :
    branchOffset site bits operand = .ok offset ↔ offset.toInt * (4 : Nat) = number := by
  constructor
  · intro accepted
    have displacement := branchOffset_ok some accepted
    rw [Holds, displacement] at holds
    exact Option.some.inj holds
  · rintro rfl
    have check := wordField_toInt some offset
    cases kind : operand.kind with
    | immediate value =>
      rw [Holds, kind] at holds
      cases holds
      simp only [branchOffset, kind]
      exact check _ _
    | symbol name =>
      rw [Holds, kind] at holds
      obtain ⟨address, bound, same⟩ := Option.map_eq_some_iff.mp holds
      have resolved : site.symbols.resolve name operand.location = .ok address :=
        SymbolTable.resolve_of_value? bound
      simp only [branchOffset, kind, resolved]
      have way : address - site.address = offset.toInt * 4 := same
      simp only [bind, Except.bind, pure, Except.pure, way]
      exact check _ _
    | _ =>
      rw [Holds, kind] at holds
      cases holds

end Selection

/-! ## Statements with a gap -/

namespace Gap

open Selection

variable {site : Site} {operands : List Operand} {index : Nat} {operand : Operand} {number : Int}
  {base : Instruction}

theorem set_of_there (there : operands[index]? = some operand) :
    operands.set index operand = operands := by
  obtain ⟨inside, rfl⟩ := List.getElem?_eq_some_iff.mp there
  exact List.set_getElem_self inside

theorem eq_of_single {only : Operand} (there : [only][index]? = some operand) :
    index = 0 ∧ only = operand := by
  match index, there with
  | 0, there => exact ⟨rfl, Option.some.inj there⟩

theorem eq_of_pair {first second : Operand} (there : [first, second][index]? = some operand) :
    index = 0 ∧ first = operand ∨ index = 1 ∧ second = operand := by
  match index, there with
  | 0, there => exact .inl ⟨rfl, Option.some.inj there⟩
  | 1, there => exact .inr ⟨rfl, Option.some.inj there⟩

/-- The operand of a gap is refused as a register. -/
theorem Holds.dataRegister_ne {gap : Gap} (holds : gap.Holds site operand number)
    {register : RegisterOperand} : dataRegister operand ≠ .ok register :=
  fun accepted ↦ holds.ne_register (dataRegister_ok accepted).1

end Gap

end MiniA64
