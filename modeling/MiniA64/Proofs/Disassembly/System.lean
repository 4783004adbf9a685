import MiniA64.Proofs.Disassembly.Sentences

/-!
# Texts of system instructions and branches

Hints, barriers and exceptions are printed by name and number, and branches by the displacement
that they hold.
-/

namespace MiniA64

/-- A displacement that a field holds in words is aligned and in range. -/
theorem Selection.wordField_toInt {bits : Nat} (some : 0 < bits) (offset : BitVec bits)
    (misaligned outOfRange : Diagnostic) :
    (if offset.toInt * 4 % 4 ≠ 0 then Except.error misaligned
      else if offset.toInt * 4 < -2 ^ (bits + 1) ∨ 2 ^ (bits + 1) ≤ offset.toInt * 4 then
        .error outOfRange
      else pure (BitVec.ofInt bits (offset.toInt * 4 / 4))) = .ok offset := by
  have low := BitVec.le_toInt offset
  have high := BitVec.toInt_lt (x := offset)
  have power : (2 : Int) ^ (bits + 1) = 2 ^ (bits - 1) * 4 := by
    rw [show bits + 1 = bits - 1 + 2 by omega, Int.pow_add]
    rfl
  have aligned : ¬offset.toInt * 4 % 4 ≠ 0 := by omega
  have range : ¬(offset.toInt * 4 < -2 ^ (bits + 1) ∨ 2 ^ (bits + 1) ≤ offset.toInt * 4) := by
    rw [power]
    omega
  rw [if_neg aligned, if_neg range, Int.mul_ediv_cancel _ (by decide), BitVec.ofInt_toInt]
  rfl

namespace Instruction

open Printing

open Selection (ok_bind pure_eq value_immediate)

/-! ## System instructions -/

variable {text : String}

theorem reads_hint {code : BitVec 7} (h : (hint code).text? = some text) :
    (hint code).Reads text := by
  obtain ⟨kind, known, rfl⟩ := Option.map_eq_some_iff.mp h
  have matched := List.find?_some known
  have coded : kind.code = code := of_decide_eq_true matched
  rw [← coded]
  exact @reads_of_name _ (.hint kind) (fun _ ↦ rfl) rfl

theorem text_count (name : String) (number : Nat) :
    line name ["#" ++ toString number] = name ++ " #" ++ toString number := by
  have joined : " " ++ ("#" ++ toString number) = " #" ++ toString number := by
    rw [← String.append_assoc]
    rfl
  simp only [line, Printing.operands, List.isEmpty_cons, Bool.false_eq_true, if_false,
    String.intercalate_singleton]
  rw [String.append_assoc, joined, String.append_assoc]

theorem lookup_optionName :
    ∀ option : BitVec 4, ∀ name ∈ Barrier.optionName? option,
      Barrier.options.lookup (Text.lower name) = some option := by
  decide

theorem barrierOption_kind (slot : Nat) (location : Location) (option : BitVec 4) :
    Selection.barrierOption ⟨slot, location, (Written.barrier option).kind⟩ = .ok option := by
  have number : BitVec.ofInt 4 (option.toNat : Int) = option := by simp
  have range : (0 : Int) ≤ option.toNat ∧ (option.toNat : Int) ≤ 15 := by omega
  rw [Selection.barrierOption, Written.kind]
  cases hname : Barrier.optionName? option with
  | none => simp [range, number]
  | some name => simp [lookup_optionName option name hname]

theorem reads_barrier {kind : Barrier} {option : BitVec 4}
    (h : (barrier kind option).text? = some text) : (barrier kind option).Reads text := by
  cases kind with
  | isb =>
    have number : BitVec.ofInt 4 (option.toNat : Int) = option := by simp
    have range : (0 : Int) ≤ option.toNat ∧ (option.toNat : Int) ≤ 15 := by omega
    cases h
    split
    · rename_i full
      subst full
      exact @reads_of_name _ (.barrier .isb) (fun _ ↦ rfl) rfl
    · have printed := text_count "isb" option.toNat
      apply reads_of (.barrier .isb) [.count option.toNat] ?_ printed rfl rfl
      intro site operands kinds
      obtain ⟨s, l, rfl⟩ := exists_one kinds
      simp [Mnemonic.select, Selection.barrier, Selection.barrierOption, Written.kind, range,
        number]
  | dsb | dmb =>
    cases h
    apply reads_of (.barrier _) [.barrier option] ?_ rfl rfl rfl
    intro site operands kinds
    obtain ⟨s, l, rfl⟩ := exists_one kinds
    exact congrArg (Except.map (Instruction.barrier _)) (barrierOption_kind s l option)

theorem reads_branchRegister {op : BranchRegisterOp} {rn : Reg}
    (h : (branchRegister op rn).text? = some text) : (branchRegister op rn).Reads text := by
  cases h
  split
  · rename_i returns
    obtain ⟨rfl, rfl⟩ := returns
    exact @reads_of_name _ (.branchRegister .ret) (fun _ ↦ rfl) rfl
  · apply reads_of (.branchRegister op) [.data rn .w64] ?_ rfl rfl rfl
    intro site operands kinds
    obtain ⟨s, l, rfl⟩ := exists_one kinds
    cases op <;>
      simp [Mnemonic.select, Selection.branchRegister, Written.kind, RegisterOperand.number]

theorem reads_exceptionNumber (op : ExceptionOp) (number : BitVec 16) :
    (exception op number).Reads (line op.name [immediate number.toNat]) := by
  apply reads_of (.exception op) [.immediate number.toNat] ?_ rfl rfl rfl
  intro site operands kinds
  obtain ⟨s, l, rfl⟩ := exists_one kinds
  have below := number.isLt
  have range : ¬((number.toNat : Int) < 0 ∨ 0xFFFF < (number.toNat : Int)) := by omega
  have same : BitVec.ofInt 16 (number.toNat : Int) = number := by simp
  simp only [Mnemonic.select, Selection.exception, Written.kind, value_immediate, ok_bind, range,
    if_false, same, pure_eq]

theorem reads_exception {op : ExceptionOp} {number : BitVec 16}
    (h : (exception op number).text? = some text) : (exception op number).Reads text := by
  cases op with
  | svc =>
    cases h
    split
    · rename_i service known
      have matched := List.find?_some known
      have coded : service.id = number := of_decide_eq_true matched
      rw [← coded]
      exact @reads_of_name _ (.service service) (fun _ ↦ rfl) rfl
    · exact reads_exceptionNumber .svc number
  | hvc | smc =>
    cases h
    exact reads_exceptionNumber _ number

/-! ## Branches -/

/-- A displacement in words is selected to the field that it was printed from. -/
theorem branchOffset_immediate {bits : Nat} (some : 0 < bits) (site : Site) (slot : Nat)
    (location : Location) (offset : BitVec bits) :
    Selection.branchOffset site bits ⟨slot, location, .immediate (offset.toInt * 4)⟩ =
      .ok offset := by
  simp only [Selection.branchOffset]
  exact Selection.wordField_toInt some offset _ _

theorem reads_branch {link : Bool} {offset : BitVec 26}
    (h : (branch link offset).text? = some text) : (branch link offset).Reads text := by
  cases h
  apply reads_of (.branch link) [.immediate (offset.toInt * 4)] ?_ rfl rfl rfl
  intro site operands kinds
  obtain ⟨s, l, rfl⟩ := exists_one kinds
  simp [Mnemonic.select, Selection.branch, Written.kind, branchOffset_immediate]

theorem reads_branchIf {condition : Condition} {offset : BitVec 19} (written : condition ≠ .nv)
    (h : (branchIf condition offset).text? = some text) :
    (branchIf condition offset).Reads text := by
  cases h
  obtain ⟨spelled, known⟩ := Mnemonic.spelled_branchIf written
  refine ⟨⟨.branchIf condition, "b." ++ condition.name, [.immediate (offset.toInt * 4)]⟩, rfl,
    ⟨spelled, known, rfl⟩, Nat.le_of_ble_eq_true rfl, fun site operands kinds ↦ ?_⟩
  obtain ⟨s, l, rfl⟩ := exists_one kinds
  simp [Mnemonic.select, Selection.branchIf, Written.kind, branchOffset_immediate]

theorem reads_compareBranch {width : Width} {nonzero : Bool} {offset : BitVec 19} {rt : Reg}
    (h : (compareBranch width nonzero offset rt).text? = some text) :
    (compareBranch width nonzero offset rt).Reads text := by
  cases h
  apply reads_of (.compareBranch nonzero) [.data rt width, .immediate (offset.toInt * 4)] ?_
    rfl rfl rfl
  intro site operands kinds
  obtain ⟨s, l, s', l', rfl⟩ := exists_two kinds
  simp [Mnemonic.select, Selection.compareBranch, Written.kind, branchOffset_immediate,
    RegisterOperand.number, RegisterOperand.width]

end Instruction

end MiniA64
