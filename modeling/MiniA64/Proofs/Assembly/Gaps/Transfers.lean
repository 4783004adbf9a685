import MiniA64.Proofs.Assembly.Gaps.Basic

/-!
# Gaps of branches and transfers

The way to a target counts words from the statement. The offset of a memory operand counts
accesses, if it is written as one that an access divides, or bytes.
-/

namespace MiniA64

namespace Gap

open Selection

variable {site : Site} {operands : List Operand} {index : Nat} {operand : Operand} {number : Int}
  {base : Instruction}

/-! ## Branches -/

/-- An instruction with the way to a target is selected for the ways that its field holds. -/
theorem branch_eq_ok_iff {bits : Nat} {make : BitVec bits → Instruction}
    {instruction : Instruction} (some : 0 < bits) (holds : target.Holds site operand number) :
    (branchOffset site bits operand >>= fun offset ↦ pure (make offset)) = .ok instruction ↔
      ∃ offset, make offset = instruction ∧ (offset.toInt * (4 : Nat) : Int) = number := by
  simp only [bind_eq_ok, pure_eq_ok, branchOffset_eq_ok_iff some holds, and_comm]

theorem exact_branch {link : Bool} (there : operands[index]? = some operand)
    (holds : target.Holds site operand number)
    (accepted : branch site link operands = .ok base) :
    target.Exact site (.signed 0 26 4) base
      fun next ↦ branch site link (operands.set index next) := by
  have known := accepted
  unfold branch at known
  split at known
  · obtain ⟨rfl, rfl⟩ := eq_of_single there
    refine exact_of_iff (Instruction.family_branch link) (fun next number instruction holds ↦ ?_)
      holds accepted
    exact branch_eq_ok_iff (by decide) holds
  · cases known

theorem exact_branchIf {condition : Condition} (there : operands[index]? = some operand)
    (holds : target.Holds site operand number)
    (accepted : branchIf site condition operands = .ok base) :
    target.Exact site (.signed 5 19 4) base
      fun next ↦ branchIf site condition (operands.set index next) := by
  have known := accepted
  unfold branchIf at known
  split at known
  · obtain ⟨rfl, rfl⟩ := eq_of_single there
    refine exact_of_iff (Instruction.family_branchIf condition)
      (fun next number instruction holds ↦ ?_) holds accepted
    exact branch_eq_ok_iff (by decide) holds
  · cases known

theorem exact_compareBranch {nonzero : Bool} (there : operands[index]? = some operand)
    (holds : target.Holds site operand number)
    (accepted : compareBranch site nonzero operands = .ok base) :
    target.Exact site (.signed 5 19 4) base
      fun next ↦ compareBranch site nonzero (operands.set index next) := by
  have known := accepted
  unfold compareBranch at known
  split at known
  · rename_i tested _
    obtain ⟨rt, data, -⟩ := bind_eq_ok.mp known
    obtain ⟨-, rfl⟩ | ⟨rfl, rfl⟩ := eq_of_pair there
    · exact absurd data holds.dataRegister_ne
    refine exact_of_iff (Instruction.family_compareBranch rt.width nonzero rt.number)
      (fun next number instruction holds ↦ ?_) holds accepted
    simp only [List.set_cons_succ, List.set_cons_zero, compareBranch, data, ok_bind]
    exact branch_eq_ok_iff (by decide) holds
  · cases known

/-! ## Transfers -/

section

variable {name : TransferName} {rt : RegisterOperand} {form : Transfer} {data : Operand}
  (register : dataRegister data = .ok rt) (known : name.transfer? rt.width = some form)

include register known

/-- A transfer with a target is a load of what lies beside the code. -/
theorem transfer_target (holds : target.Holds site operand number) :
    transfer site name [data, operand] =
      match literalLoad? name rt.width with
      | none => refuse operand.location (.needsMemory name.name)
      | some load => do
        return .loadLiteral load (← branchOffset site 19 operand) rt.number := by
  cases kind : operand.kind with
  | immediate | symbol =>
    cases loads : literalLoad? name rt.width <;>
      simp only [transfer, register, ok_bind, known, kind, loads]
  | _ =>
    rw [Holds, kind] at holds
    cases holds

theorem transfer_memory {rn : Reg} {address : MemoryForm}
    (kind : operand.kind = .memory ⟨rn, address⟩) :
    transfer site name [data, operand] = do
      return .loadStore form (← addressing name form operand.location address) rn rt.number := by
  simp only [transfer, register, ok_bind, known, kind]

end

/-- The register of an accepted transfer, and the transfer that it is. -/
theorem transfer_eq_ok {name : TransferName} {data place : Operand}
    (accepted : transfer site name [data, place] = .ok base) :
    ∃ rt form, dataRegister data = .ok rt ∧ name.transfer? rt.width = some form := by
  obtain ⟨rt, register, rest⟩ := bind_eq_ok.mp accepted
  cases known : name.transfer? rt.width with
  | none =>
    rw [known] at rest
    cases rest
  | some form => exact ⟨rt, form, register, known⟩

/-- The gap of a transfer is its place, and the data is in a register. -/
theorem transfer_there {gap : Gap} {name : TransferName} (there : operands[index]? = some operand)
    (holds : gap.Holds site operand number)
    (accepted : transfer site name operands = .ok base) :
    ∃ data rt form, dataRegister data = .ok rt ∧ name.transfer? rt.width = some form ∧
      ∀ next, operands.set index next = [data, next] := by
  have pair := accepted
  unfold transfer at pair
  split at pair
  · obtain ⟨rt, form, register, known⟩ := transfer_eq_ok accepted
    obtain ⟨-, rfl⟩ | ⟨rfl, rfl⟩ := eq_of_pair there
    · exact absurd register holds.dataRegister_ne
    · exact ⟨_, rt, form, register, known, fun _ ↦ rfl⟩
  · cases pair

theorem exact_literal {name : TransferName} (there : operands[index]? = some operand)
    (holds : target.Holds site operand number)
    (accepted : transfer site name operands = .ok base) :
    target.Exact site (.signed 5 19 4) base
      fun next ↦ transfer site name (operands.set index next) := by
  obtain ⟨data, rt, form, register, known, refilled⟩ := transfer_there there holds accepted
  rw [← set_of_there there, refilled] at accepted
  simp only [refilled]
  cases literal : literalLoad? name rt.width with
  | none =>
    rw [transfer_target register known holds, literal] at accepted
    cases accepted
  | some load =>
    refine exact_of_iff (Instruction.family_loadLiteral load rt.number)
      (fun next number instruction holds ↦ ?_) holds accepted
    rw [transfer_target register known holds, literal]
    exact branch_eq_ok_iff (by decide) holds

/-- The field of an offset without a change of the base is unsigned and scaled. -/
theorem exact_scaledOffset {name : TransferName} {rn : Reg}
    (there : operands[index]? = some operand) (holds : (offset rn).Holds site operand number)
    (accepted : transfer site name operands = .ok base) :
    ∃ form address rt, base = .loadStore form address rn rt ∧
      (offset rn).Exact site (.unsigned 10 12 (2 ^ 12) form.byteCount) base
        fun next ↦ transfer site name (operands.set index next) := by
  obtain ⟨data, rt, form, register, known, refilled⟩ := transfer_there there holds accepted
  rw [← set_of_there there, refilled] at accepted
  simp only [refilled]
  have select (next : Operand) (number : Int) (instruction : Instruction)
      (holds : (offset rn).Holds site next number) :
      transfer site name [data, next] = .ok instruction ↔
        ∃ field : BitVec 12, .loadStore form (.scaled field) rn rt.number = instruction ∧
          (field.toNat * form.byteCount : Int) = number := by
    rw [transfer_memory register known holds]
    simp only [addressing, bind_eq_ok, pure_eq_ok, scaledOffset_eq_ok_iff]
    grind
  obtain ⟨field, rfl, -⟩ := (select _ _ _ holds).mp accepted
  exact ⟨form, _, _, rfl, exact_of_iff
    (Instruction.family_scaledOffset rn form rt.number) select holds accepted⟩

/-- The field of an offset with a change of the base is signed. -/
theorem exact_writeback {gap : Gap} {name : TransferName} {rn : Reg}
    {changed : Int → MemoryForm} {address : BitVec 9 → Addressing}
    (memory : ∀ {next number}, gap.Holds site next number →
      next.kind = .memory ⟨rn, changed number⟩)
    (taken : ∀ form location number, addressing name form location (changed number) = do
      return address (← byteOffset location number .writeback))
    (form : address = .preIndex ∨ address = .postIndex)
    (there : operands[index]? = some operand) (holds : gap.Holds site operand number)
    (accepted : transfer site name operands = .ok base) :
    gap.Exact site (.signed 12 9 1) base
      fun next ↦ transfer site name (operands.set index next) := by
  obtain ⟨data, rt, transfer, register, known, refilled⟩ := transfer_there there holds accepted
  rw [← set_of_there there, refilled] at accepted
  simp only [refilled]
  refine exact_of_iff (Instruction.family_byteOffset rn transfer rt.number (.inr form))
    (fun next number instruction holds ↦ ?_) holds accepted
  rw [transfer_memory register known (memory holds)]
  simp only [taken, bind_eq_ok, pure_eq_ok, byteOffset_eq_ok_iff]
  grind

theorem exact_unscaled {name : TransferName} {rn : Reg}
    (there : operands[index]? = some operand) (holds : (offset rn).Holds site operand number)
    (accepted : unscaledTransfer site name operands = .ok base) :
    (offset rn).Exact site (.signed 12 9 1) base
      fun next ↦ unscaledTransfer site name (operands.set index next) := by
  have pair := accepted
  unfold unscaledTransfer at pair
  split at pair
  · rename_i data place
    obtain ⟨rt, register, rest⟩ := bind_eq_ok.mp pair
    obtain ⟨-, rfl⟩ | ⟨rfl, rfl⟩ := eq_of_pair there
    · exact absurd register holds.dataRegister_ne
    cases known : name.transfer? rt.width with
    | none =>
      rw [known] at rest
      cases rest
    | some form =>
      refine exact_of_iff (Instruction.family_byteOffset rn form rt.number (.inl rfl))
        (fun next number instruction holds ↦ ?_) holds accepted
      have kind : next.kind = .memory ⟨rn, .offset number⟩ := holds
      simp only [List.set_cons_succ, List.set_cons_zero, unscaledTransfer, register, ok_bind,
        known, kind, bind_eq_ok, pure_eq_ok, byteOffset_eq_ok_iff]
      grind
  · cases pair

theorem pairTarget?_of_memory {rn : Reg} {changed : Int → MemoryForm} {mode : PairMode}
    (paired : ∀ number, pairForm? (changed number) = some (mode, number))
    (memory : operand.kind = .memory ⟨rn, changed number⟩) :
    pairTarget? operand = some (rn, mode, number) := by
  simp only [pairTarget?, memory, paired, Option.map_some]

/-- The offset of a pair counts in elements, and may come with a change of the base. -/
theorem exact_pair {gap : Gap} {load : Bool} {rn : Reg} {changed : Int → MemoryForm}
    {mode : PairMode}
    (memory : ∀ {next number}, gap.Holds site next number →
      next.kind = .memory ⟨rn, changed number⟩)
    (paired : ∀ number, pairForm? (changed number) = some (mode, number))
    (there : operands[index]? = some operand) (holds : gap.Holds site operand number)
    (accepted : pair site load operands = .ok base) :
    ∃ width mode field rt2 rt, base = .pair width load mode field rt2 rn rt ∧
      gap.Exact site (.signed 15 7 (width.bits / 8)) base
        fun next ↦ pair site load (operands.set index next) := by
  have three := accepted
  unfold Selection.pair at three
  split at three
  · rename_i first second place
    obtain ⟨rt, register, rest⟩ := bind_eq_ok.mp three
    obtain ⟨rt2, register2, rest⟩ := bind_eq_ok.mp rest
    obtain ⟨width, same, rest⟩ := bind_eq_ok.mp rest
    match index, there with
    | 0, there =>
      cases there
      exact absurd register holds.dataRegister_ne
    | 1, there =>
      cases there
      exact absurd register2 holds.dataRegister_ne
    | 2, there =>
      cases there
      have select (next : Operand) (number : Int) (instruction : Instruction)
          (holds : gap.Holds site next number) :
          pair site load [first, second, next] = .ok instruction ↔
            ∃ field : BitVec 7,
              .pair width load mode field rt2.number rn rt.number = instruction ∧
              field.toInt * (width.bits / 8 : Nat) = number := by
        have target := pairTarget?_of_memory paired (memory holds)
        simp only [Selection.pair, register, register2, same, ok_bind, target, bind_eq_ok,
          pure_eq_ok, pairOffset_eq_ok_iff]
        grind
      obtain ⟨field, rfl, -⟩ := (select _ _ _ holds).mp accepted
      exact ⟨width, mode, field, _, _, rfl, exact_of_iff
        (Instruction.family_pairOffset width rn rt.number load mode rt2.number _) select holds
        accepted⟩
  · cases three

end Gap

end MiniA64
