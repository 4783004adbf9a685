import MiniA64.Proofs.Assembly.Parsing
import MiniA64.Proofs.DataProcessing.Forms
import MiniA64.Proofs.Disassembly.DataProcessing
import MiniA64.Proofs.Disassembly.Transfers

/-!
# Texts of selected instructions

Not every instruction has a text: the machine executes forms that no statement is selected to.
Every instruction that is selected has one, and it is the text of a statement that stands for the
same instruction.
-/

namespace MiniA64

namespace Instruction

/--
The instruction has a text that a statement can have. The text of a branch with the condition
`nv` is not one.
-/
def isWritten : Instruction → Bool
  | branchIf .nv _ => false
  | instruction => instruction.text?.isSome

/-- A text that a statement can have is the text of one that stands for the instruction. -/
theorem exists_text_of_isWritten {instruction : Instruction}
    (written : instruction.isWritten = true) :
    ∃ text, instruction.text? = some text ∧ instruction.Reads text := by
  have shown : instruction.text?.isSome = true := by
    unfold isWritten at written
    split at written
    · cases written
    · exact written
  obtain ⟨text, h⟩ := Option.isSome_iff_exists.mp shown
  refine ⟨text, h, ?_⟩
  cases instruction with
  | hint => exact reads_hint h
  | barrier => exact reads_barrier h
  | branchRegister => exact reads_branchRegister h
  | exception => exact reads_exception h
  | addSubImmediate => exact reads_addSubImmediate h
  | addSubRegister => exact reads_addSubRegister h
  | logical => exact reads_logical h
  | moveWide => exact reads_moveWide h
  | bitfield => exact reads_bitfield h
  | extract => exact reads_extract h
  | twoSource => exact reads_twoSource h
  | multiplyAdd => exact reads_multiplyAdd h
  | branch => exact reads_branch h
  | branchIf condition offset =>
    refine reads_branchIf ?_ h
    rintro rfl
    cases written
  | compareBranch => exact reads_compareBranch h
  | loadStore => exact reads_loadStore h
  | loadLiteral => exact reads_loadLiteral h
  | pair => exact reads_pair h

/-! ## Instructions with a text -/

variable {instruction : Instruction} {width : Width}

theorem isSome_addSubRegister {op : AddSubOp} {setFlags : Bool} {kind : LinearShift}
    {amount : BitVec 6} {rm rn rd : Reg} (below : amount.toNat < width.bits) :
    (addSubRegister width op setFlags kind amount rm rn rd).text?.isSome = true := by
  rw [text?, Printing.addSubRegister, if_neg (shown_iff.mpr below)]
  dsimp only
  split
  · rfl
  split <;> rfl

theorem isSome_logical (name : LogicalName) {kind : ShiftKind} {amount : BitVec 6}
    {rm rn rd : Reg} (below : amount.toNat < width.bits) :
    (logical width name.operation.1 name.operation.2 kind amount rm rn rd).text?.isSome = true := by
  have known : LogicalName.ofOperation? name.operation.1 name.operation.2 = some name := by
    cases name <;> rfl
  rw [text?, Printing.logical, if_neg (shown_iff.mpr below)]
  simp only [known]
  split
  · rfl
  split
  · rfl
  split <;> rfl

theorem isSome_shiftImmediate (kind : ShiftKind) (amount : Fin width.bits) (rn rd : Reg) :
    (Selection.shiftImmediate kind width amount rn rd).text?.isSome = true := by
  cases kind with
  | ror => simp [Selection.shiftImmediate, text?]
  | lsr | asr => simp [Selection.shiftImmediate, text?, Printing.bitfield]
  | lsl =>
    simp only [Selection.shiftImmediate, text?, Printing.bitfield]
    split
    · rfl
    rename_i partial'
    have below := amount.isLt
    have rotated : width.bits - 1 - amount.val + 1 = (width.bits - amount.val) % width.bits := by
      rw [Nat.mod_eq_of_lt (by omega)]
      omega
    simp [rotated]

theorem isWritten_of_form {symbols : SymbolTable} {mnemonic : Mnemonic}
    {reading : DataProcessing.Reading}
    (form : DataProcessing.Form symbols mnemonic reading instruction) :
    instruction.isWritten = true := by
  cases form with
  | addSubRegister _ _ _ fields | compareRegister _ _ fields | negate _ _ fields =>
    exact isSome_addSubRegister fields.below
  | test _ _ fields => exact isSome_logical .ands fields.below
  | logical _ _ _ fields => exact isSome_logical _ fields.below
  | invert _ _ fields => exact isSome_logical .orn fields.below
  | moveRegister => exact isSome_logical .orr (Width.bits_pos _)
  | @shiftConstant kind d n second index =>
    have written := isSome_shiftImmediate kind index n.number d.number
    cases kind <;> exact written
  | _ => rfl

/-! ## Selection gives instructions with a text -/

open Selection

variable {site : Site} {operands : List Operand}

theorem isWritten_loadStore {name : TransferName} {transfer : Transfer} {location : Location}
    {form : MemoryForm} {address : Addressing} (rn rt : Reg)
    (h : addressing name transfer location form = .ok address) :
    (loadStore transfer address rn rt).isWritten = true := by
  cases form with
  | index rm =>
    cases h
    rfl
  | preIndex | postIndex | offset =>
    obtain ⟨offset, -, result⟩ := bind_eq_ok.mp h
    cases pure_eq_ok.mp result
    rfl

theorem isWritten_transfer {name : TransferName}
    (h : Selection.transfer site name operands = .ok instruction) :
    instruction.isWritten = true := by
  unfold Selection.transfer at h
  split at h
  · obtain ⟨rt, -, h⟩ := bind_eq_ok.mp h
    split at h
    · cases h
    split at h
    · obtain ⟨address, haddress, result⟩ := bind_eq_ok.mp h
      cases pure_eq_ok.mp result
      exact isWritten_loadStore _ _ haddress
    split at h
    · cases h
    · obtain ⟨offset, -, result⟩ := bind_eq_ok.mp h
      cases pure_eq_ok.mp result
      rfl
  · cases h

theorem isWritten_unscaledTransfer {name : TransferName}
    (h : Selection.unscaledTransfer site name operands = .ok instruction) :
    instruction.isWritten = true := by
  unfold Selection.unscaledTransfer at h
  split at h
  · obtain ⟨rt, -, h⟩ := bind_eq_ok.mp h
    split at h
    · cases h
    split at h
    · obtain ⟨offset, -, result⟩ := bind_eq_ok.mp h
      cases pure_eq_ok.mp result
      rfl
    · cases h
  · cases h

theorem isWritten_pair {load : Bool} (h : Selection.pair site load operands = .ok instruction) :
    instruction.isWritten = true := by
  unfold Selection.pair at h
  split at h
  · obtain ⟨rt, -, h⟩ := bind_eq_ok.mp h
    obtain ⟨rt2, -, h⟩ := bind_eq_ok.mp h
    obtain ⟨width, -, h⟩ := bind_eq_ok.mp h
    split at h
    · cases h
    rename_i base mode offset target
    obtain ⟨field, -, result⟩ := bind_eq_ok.mp h
    cases pure_eq_ok.mp result
    rw [pairTarget?] at target
    split at target
    · rename_i form kind
      cases form <;> cases target <;> rfl
    · cases target
  · cases h

theorem isWritten_branchRegister {op : BranchRegisterOp}
    (h : Selection.branchRegister site op operands = .ok instruction) :
    instruction.isWritten = true := by
  unfold Selection.branchRegister at h
  split at h
  · cases h
    rfl
  · obtain ⟨target, -, result⟩ := bind_eq_ok.mp h
    cases pure_eq_ok.mp result
    rfl
  · cases h
  · cases h

theorem isWritten_barrier {kind : Barrier}
    (h : Selection.barrier site kind operands = .ok instruction) :
    instruction.isWritten = true := by
  unfold Selection.barrier at h
  split at h
  · cases h
    cases kind <;> rfl
  · obtain ⟨option, -, result⟩ := bind_eq_ok.mp h
    cases pure_eq_ok.mp result
    cases kind <;> rfl
  · cases h

theorem isWritten_exception {op : ExceptionOp}
    (h : Selection.exception site op operands = .ok instruction) :
    instruction.isWritten = true := by
  unfold Selection.exception at h
  split at h
  · obtain ⟨value, -, h⟩ := bind_eq_ok.mp h
    split at h
    · cases h
    · cases pure_eq_ok.mp h
      cases op <;> rfl
  · cases h

/-- The instruction that a statement is selected to has a text. -/
theorem isWritten_of_select {mnemonic : Mnemonic} (spelled : mnemonic ≠ .branchIf .nv)
    (h : mnemonic.select site operands = .ok instruction) :
    instruction.isWritten = true := by
  cases mnemonic with
  | transfer name => exact isWritten_transfer h
  | unscaledTransfer name => exact isWritten_unscaledTransfer h
  | pair load => exact isWritten_pair h
  | branch link =>
    simp only [Mnemonic.select, Selection.branch] at h
    split at h
    · obtain ⟨offset, -, result⟩ := bind_eq_ok.mp h
      cases pure_eq_ok.mp result
      rfl
    · cases h
  | branchIf condition =>
    simp only [Mnemonic.select, Selection.branchIf] at h
    split at h
    · obtain ⟨offset, -, result⟩ := bind_eq_ok.mp h
      cases pure_eq_ok.mp result
      cases condition <;> first | rfl | exact absurd rfl spelled
    · cases h
  | compareBranch nonzero =>
    simp only [Mnemonic.select, Selection.compareBranch] at h
    split at h
    · obtain ⟨rt, -, h⟩ := bind_eq_ok.mp h
      obtain ⟨offset, -, result⟩ := bind_eq_ok.mp h
      cases pure_eq_ok.mp result
      rfl
    · cases h
  | branchRegister op => exact isWritten_branchRegister h
  | hint kind =>
    simp only [Mnemonic.select, Selection.hint] at h
    split at h
    · cases h
      cases kind <;> rfl
    · cases h
  | barrier kind => exact isWritten_barrier h
  | exception op => exact isWritten_exception h
  | service kind =>
    simp only [Mnemonic.select, Selection.service] at h
    split at h
    · cases h
      rfl
    · cases h
  | _ =>
    obtain ⟨reading, -, form⟩ := DataProcessing.exists_form rfl h
    exact isWritten_of_form form

end Instruction

end MiniA64
