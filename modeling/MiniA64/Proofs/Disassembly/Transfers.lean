import MiniA64.Proofs.Disassembly.System

/-!
# Texts of loads and stores

A transfer is printed with its offset in bytes, whatever the unit of its field, and the offset
selects the field that it was printed from. A transfer after which the base is moved has the
offset beside the brackets, where it is part of the memory operand all the same.
-/

namespace MiniA64

/-! ## Offsets -/

namespace Selection

variable {location : Location}

theorem byteOffset_toInt (offset : BitVec 9) (slot : ImmediateSlot) :
    byteOffset location offset.toInt slot = .ok offset := by
  have low := BitVec.le_toInt offset
  have high := @BitVec.toInt_lt _ offset
  have accepted : ¬(offset.toInt < -256 ∨ 255 < offset.toInt) := by omega
  rw [byteOffset, if_neg accepted, BitVec.ofInt_toInt]

theorem scaledOffset_mul (name : TransferName) (transfer : Transfer) (offset : BitVec 12) :
    scaledOffset name transfer location (offset.toNat * 2 ^ transfer.size : Nat) =
      .ok offset := by
  have below := offset.isLt
  have positive : ((2 ^ transfer.size : Nat) : Int) ≠ 0 := by
    have := Nat.two_pow_pos transfer.size
    omega
  have multiple : ((offset.toNat * 2 ^ transfer.size : Nat) : Int) % (2 ^ transfer.size : Nat) =
      0 := by
    rw [Int.natCast_mul]
    exact Int.mul_emod_left _ _
  have quotient : ((offset.toNat * 2 ^ transfer.size : Nat) : Int) / (2 ^ transfer.size : Nat) =
      offset.toNat := by
    rw [Int.natCast_mul]
    exact Int.mul_ediv_cancel _ positive
  have accepted : ¬((((offset.toNat * 2 ^ transfer.size : Nat) : Int) < 0) ∨
      (4095 : Int) < offset.toNat) := by omega
  simp only [scaledOffset, Transfer.byteCount, multiple, quotient, accepted, ne_eq,
    not_true_eq_false, if_false, BitVec.ofInt_natCast, BitVec.ofNat_toNat, BitVec.setWidth_eq]

theorem pairOffset_mul (width : Width) (offset : BitVec 7) :
    pairOffset width location (offset.toInt * (width.bits / 8 : Nat)) = .ok offset := by
  have low := BitVec.le_toInt offset
  have high := @BitVec.toInt_lt _ offset
  have positive : ((width.bits / 8 : Nat) : Int) ≠ 0 := by cases width <;> decide
  have accepted : ¬(offset.toInt < -64 ∨ 63 < offset.toInt) := by omega
  simp only [pairOffset, Int.mul_emod_left, Int.mul_ediv_cancel _ positive, accepted, ne_eq,
    not_true_eq_false, if_false, BitVec.ofInt_toInt]

end Selection

namespace Instruction

open Printing Selection

variable {text : String} {width : Width}

/-! ## Single transfers -/

/-- A memory operand of a transfer is selected to the addressing that it was printed from. -/
theorem reads_memory {transfer : Transfer} {address : Addressing} {form : MemoryForm}
    (rn rt : Reg)
    (same : ∀ location, addressing (TransferName.ofTransfer transfer).1 transfer location form =
      .ok address) :
    (loadStore transfer address rn rt).Reads (line (TransferName.ofTransfer transfer).1.name
      [rt.name (TransferName.ofTransfer transfer).2, (Written.memory ⟨rn, form⟩).text]) := by
  apply reads_of (.transfer (TransferName.ofTransfer transfer).1)
    [.data rt (TransferName.ofTransfer transfer).2, .memory ⟨rn, form⟩] ?_ rfl rfl rfl
  intro site operands kinds
  obtain ⟨s, l, s', l', rfl⟩ := exists_two kinds
  simp [Mnemonic.select, Selection.transfer, Written.kind, RegisterOperand.width,
    RegisterOperand.number, TransferName.transfer?_ofTransfer, same]

theorem operands_beside (before : List String) (memory offset : String) :
    Printing.operands (before ++ [memory, offset]) =
      Printing.operands (before ++ [memory ++ ", " ++ offset]) := by
  unfold Printing.operands
  induction before with
  | nil => rw [List.nil_append, List.nil_append, String.intercalate_cons_cons,
      String.intercalate_singleton, String.intercalate_singleton]
  | cons first rest ih =>
    cases rest with
    | nil =>
      simp only [List.cons_append, List.nil_append, String.intercalate_cons_cons,
        String.intercalate_singleton]
    | cons second rest =>
      simp only [List.cons_append, String.intercalate_cons_cons] at ih ⊢
      rw [ih]

/-- An offset beside the brackets is part of the memory operand. -/
theorem line_beside (name : String) (before : List String) (memory offset : String) :
    line name (before ++ [memory ++ ", " ++ offset]) = line name (before ++ [memory, offset]) := by
  rw [line, line, operands_beside]
  cases before <;> rfl

theorem reads_loadStore {transfer : Transfer} {address : Addressing} {rn rt : Reg}
    (h : (loadStore transfer address rn rt).text? = some text) :
    (loadStore transfer address rn rt).Reads text := by
  cases address with
  | scaled offset =>
    cases h
    exact @reads_memory transfer _ (.offset _) rn rt fun location ↦
      congrArg (Except.map Addressing.scaled) (scaledOffset_mul _ transfer offset)
  | unscaled offset =>
    cases h
    apply reads_of (.unscaledTransfer (TransferName.ofTransfer transfer).1)
      [.data rt (TransferName.ofTransfer transfer).2, .memory ⟨rn, .offset offset.toInt⟩] ?_
      rfl rfl rfl
    intro site operands kinds
    obtain ⟨s, l, s', l', rfl⟩ := exists_two kinds
    simp [Mnemonic.select, Selection.unscaledTransfer, Written.kind, RegisterOperand.width,
      RegisterOperand.number, TransferName.transfer?_ofTransfer, byteOffset_toInt]
  | postIndex offset =>
    cases h
    have reads := @reads_memory transfer _ (.postIndex offset.toInt) rn rt fun location ↦
      congrArg (Except.map Addressing.postIndex) (byteOffset_toInt offset .writeback)
    exact line_beside _ [_] _ _ ▸ reads
  | preIndex offset =>
    cases h
    exact @reads_memory transfer _ (.preIndex offset.toInt) rn rt fun location ↦
      congrArg (Except.map Addressing.preIndex) (byteOffset_toInt offset .writeback)
  | index rm extend scaled =>
    rw [text?, Printing.loadStore] at h
    simp only at h
    split at h
    · rename_i plain
      simp only [Bool.and_eq_true, decide_eq_true_eq, Bool.not_eq_true'] at plain
      obtain ⟨rfl, rfl⟩ := plain
      cases h
      exact @reads_memory transfer _ (.index rm) rn rt fun _ ↦ rfl
    · cases h

theorem reads_literal (name : TransferName) (load : LiteralLoad) (offset : BitVec 19) (rt : Reg)
    (loads : literalLoad? name width = some load) (exists' : (name.transfer? width).isSome) :
    (loadLiteral load offset rt).Reads
      (line name.name [rt.name width, immediate (offset.toInt * 4)]) := by
  apply reads_of (.transfer name) [.data rt width, .immediate (offset.toInt * 4)] ?_ rfl rfl rfl
  intro site operands kinds
  obtain ⟨s, l, s', l', rfl⟩ := exists_two kinds
  obtain ⟨transfer, known⟩ := Option.isSome_iff_exists.mp exists'
  simp [Mnemonic.select, Selection.transfer, Written.kind, RegisterOperand.width,
    RegisterOperand.number, known, loads, branchOffset_immediate]

theorem reads_loadLiteral {load : LiteralLoad} {offset : BitVec 19} {rt : Reg}
    (h : (loadLiteral load offset rt).text? = some text) :
    (loadLiteral load offset rt).Reads text := by
  cases h
  cases load with
  | word => exact reads_literal .ldr .word offset rt rfl rfl
  | doubleWord => exact reads_literal .ldr .doubleWord offset rt rfl rfl
  | signedWord => exact reads_literal .ldrsw .signedWord offset rt rfl rfl

/-! ## Pairs -/

theorem reads_pairMemory {load : Bool} {mode : PairMode} {offset : BitVec 7} {form : MemoryForm}
    {bytes : Int} (rt rt2 rn : Reg) (known : pairForm? form = some (mode, bytes))
    (same : ∀ location, pairOffset width location bytes = .ok offset) :
    (pair width load mode offset rt2 rn rt).Reads (line (if load then "ldp" else "stp")
      [rt.name width, rt2.name width, (Written.memory ⟨rn, form⟩).text]) := by
  apply reads_of (.pair load) [.data rt width, .data rt2 width, .memory ⟨rn, form⟩] ?_ rfl rfl rfl
  intro site operands kinds
  obtain ⟨s, l, s', l', s'', l'', rfl⟩ := exists_three kinds
  simp [Mnemonic.select, Selection.pair, sameWidth, Written.kind, RegisterOperand.width,
    RegisterOperand.number, pairTarget?, known, same]

theorem reads_pair {load : Bool} {mode : PairMode} {offset : BitVec 7} {rt2 rn rt : Reg}
    (h : (pair width load mode offset rt2 rn rt).text? = some text) :
    (pair width load mode offset rt2 rn rt).Reads text := by
  cases mode with
  | plainOffset => cases h
  | postIndex =>
    cases h
    have reads := @reads_pairMemory width load _ offset (.postIndex _) _ rt rt2 rn rfl fun _ ↦
      pairOffset_mul width offset
    exact line_beside _ [_, _] _ _ ▸ reads
  | offset =>
    cases h
    exact @reads_pairMemory width load _ offset (.offset _) _ rt rt2 rn rfl fun _ ↦
      pairOffset_mul width offset
  | preIndex =>
    cases h
    exact @reads_pairMemory width load _ offset (.preIndex _) _ rt rt2 rn rfl fun _ ↦
      pairOffset_mul width offset

end Instruction

end MiniA64
