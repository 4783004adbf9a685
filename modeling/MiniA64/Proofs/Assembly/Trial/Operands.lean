import MiniA64.Assembly.Trial.Basic

/-!
# Trials of operands

A trial follows a step of the selection if it ends as the step does. Trials that follow steps are
put together like the steps. A node is asked only for what its kind has, because its kind has been
looked at before, and what a list is asked for is in it, because the operands have been counted.
-/

namespace MiniA64

namespace Trial

/-! ## Trials and steps -/

/-- The trial ends as a step does, with what is read off the result. -/
def Keeps {α β : Type} (read : α → β) (trial : Trial β) (step : Except Diagnostic α) : Prop :=
  trial = settle (step.map read)

/-- The trial ends as a step does. -/
abbrev Follows {α : Type} (trial : Trial α) (step : Except Diagnostic α) : Prop :=
  Keeps (fun result ↦ result) trial step

section

variable {α β γ δ : Type} {read : α → β} {trial : Trial β} {step : Except Diagnostic α}

@[simp]
theorem ok_bind (value : α) (next : α → Trial β) :
    (Except.ok value : Trial α) >>= next = next value := rfl

@[simp]
theorem pure_bind (value : α) (next : α → Trial β) :
    (pure value : Trial α) >>= next = next value := rfl

theorem follows_iff {trial : Trial α} : Follows trial step ↔ trial = settle step := by
  unfold Follows Keeps
  cases step <;> exact Iff.rfl

theorem Keeps.ok (read : α → β) (result : α) : Keeps read (.ok (read result)) (.ok result) := rfl

theorem Keeps.settle (step : Except Diagnostic α) : Follows (Trial.settle step) step :=
  follows_iff.mpr rfl

/-- What comes after a trial may use that the step has a result. -/
theorem Keeps.bind_of {next : β → Trial δ} {after : α → Except Diagnostic γ} {last : γ → δ}
    (begun : Keeps read trial step)
    (ended : ∀ result, step = .ok result → Keeps last (next (read result)) (after result)) :
    Keeps last (trial >>= next) (step >>= after) := by
  subst begun
  cases step with
  | error diagnostic => rfl
  | ok result => exact ended result rfl

theorem Keeps.bind {next : β → Trial δ} {after : α → Except Diagnostic γ} {last : γ → δ}
    (begun : Keeps read trial step)
    (ended : ∀ result, Keeps last (next (read result)) (after result)) :
    Keeps last (trial >>= next) (step >>= after) :=
  begun.bind_of fun result _ ↦ ended result

theorem Keeps.ite {condition : Prop} [Decidable condition] {other : Trial β}
    {otherStep : Except Diagnostic α} (positive : condition → Keeps read trial step)
    (negative : ¬condition → Keeps read other otherStep) :
    Keeps read (if condition then trial else other) (if condition then step else otherStep) := by
  split
  · exact positive ‹_›
  · exact negative ‹_›

/-- What is read off a result may be read further. -/
theorem Keeps.reading {next : β → Trial γ} {last : α → γ} (begun : Keeps read trial step)
    (ended : ∀ result, next (read result) = .ok (last result)) :
    Keeps last (trial >>= next) step := by
  subst begun
  cases step with
  | error diagnostic => rfl
  | ok result => exact ended result

end

/-! ## Operands -/

theorem keeps_refuse {α β : Type} (read : α → β) (location : Location) (error : OperandError) :
    Keeps read (refuse location error) (Selection.refuse location error) := rfl

theorem keeps_outOfRange {α β : Type} (read : α → β) (location : Location) (value : Int)
    (slot : ImmediateSlot) :
    Keeps read (outOfRange location value slot) (Selection.outOfRange location value slot) := rfl

section

variable (register : RegisterOperand)

@[simp]
theorem isRegister_node : register.node.isRegister = true := rfl

@[simp]
theorem number_node : register.node.number = .ok register.number := rfl

@[simp]
theorem width_node : register.node.width = .ok register.width := rfl

@[simp]
theorem isStackPointer_node : register.node.isStackPointer = .ok register.name.isStackPointer := rfl

@[simp]
theorem isZero_node : register.node.isZero = .ok register.name.isZero := rfl

theorem register_node : Trial.register register.node = .ok register.node := rfl

theorem keeps_asData :
    Keeps RegisterOperand.node (dataRegister register.node) (Selection.asData register) := by
  unfold dataRegister Selection.asData
  rw [register_node, ok_bind, isStackPointer_node, ok_bind]
  split
  · exact keeps_refuse ..
  · exact .ok ..

theorem keeps_asStack :
    Keeps RegisterOperand.node (stackRegister register.node) (Selection.asStack register) := by
  unfold stackRegister Selection.asStack
  rw [register_node, ok_bind, isZero_node, ok_bind]
  split
  · exact keeps_refuse ..
  · exact .ok ..

theorem follows_asRegisterForm :
    Follows (registerForm register.node) (Selection.asRegisterForm register) := by
  unfold registerForm Selection.asRegisterForm
  rw [isStackPointer_node, ok_bind]
  split
  · exact keeps_refuse ..
  · exact .ok ..

end

theorem eq_of_asData {register result : RegisterOperand}
    (passed : Selection.asData register = .ok result) : result = register := by
  unfold Selection.asData at passed
  split at passed <;> cases passed
  rfl

theorem eq_of_asStack {register result : RegisterOperand}
    (passed : Selection.asStack register = .ok result) : result = register := by
  unfold Selection.asStack at passed
  split at passed <;> cases passed
  rfl

/-- A register that has been looked at is taken as it was. -/
theorem Keeps.afterData {α β : Type} {last : α → β} {register : RegisterOperand}
    {next : Node → Trial β} {after : RegisterOperand → Except Diagnostic α}
    (ended : Keeps last (next register.node) (after register)) :
    Keeps last (dataRegister register.node >>= next) (Selection.asData register >>= after) :=
  (keeps_asData register).bind_of fun _ passed ↦ eq_of_asData passed ▸ ended

theorem Keeps.afterStack {α β : Type} {last : α → β} {register : RegisterOperand}
    {next : Node → Trial β} {after : RegisterOperand → Except Diagnostic α}
    (ended : Keeps last (next register.node) (after register)) :
    Keeps last (stackRegister register.node >>= next) (Selection.asStack register >>= after) :=
  (keeps_asStack register).bind_of fun _ passed ↦ eq_of_asStack passed ▸ ended

theorem node_of_registerOf? {operand : Operand} {register : RegisterOperand}
    (held : Selection.registerOf? operand = some register) : operand.node = register.node := by
  obtain ⟨slot, location, kind⟩ := operand
  cases kind <;> cases held
  rfl

theorem isRegister_operand (operand : Operand) :
    operand.node.isRegister = (Selection.registerOf? operand).isSome := by
  obtain ⟨slot, location, kind⟩ := operand
  cases kind <;> rfl

theorem isRegister_of_none {operand : Operand} (held : Selection.registerOf? operand = none) :
    operand.node.isRegister = false := by
  rw [isRegister_operand, held, Option.isSome_none]

theorem isShift_operand (operand : Operand) : operand.node.isShift = Selection.isShift operand := by
  obtain ⟨slot, location, kind⟩ := operand
  cases kind <;> rfl

theorem keeps_register (operand : Operand) :
    Keeps RegisterOperand.node (register operand.node) (Selection.register operand) := by
  obtain ⟨slot, location, kind⟩ := operand
  cases kind <;> rfl

theorem keeps_dataRegister (operand : Operand) :
    Keeps RegisterOperand.node (dataRegister operand.node) (Selection.dataRegister operand) := by
  unfold Selection.dataRegister Selection.register
  cases held : Selection.registerOf? operand with
  | none =>
    unfold dataRegister register
    rw [isRegister_of_none held]
    rfl
  | some register =>
    rw [node_of_registerOf? held]
    exact keeps_asData register

variable {site : Site}

theorem follows_value (operand : Operand) (what : Expected) :
    Follows (valueOf site.symbols operand.node what) (Selection.value site operand what) := by
  obtain ⟨slot, location, kind⟩ := operand
  cases kind with
  | symbol name => exact .settle _
  | _ => rfl

theorem mapM_width (registers : List RegisterOperand) :
    (registers.map RegisterOperand.node).mapM Node.width =
      .ok (registers.map RegisterOperand.width) := by
  induction registers with
  | nil => rfl
  | cons register rest ih =>
    rw [List.map_cons, List.mapM_cons, width_node, ok_bind, ih]
    rfl

/-- One width is left of the set of all widths if the others are equal to the first one. -/
theorem follows_sameWidth (first : RegisterOperand) (rest : List RegisterOperand) :
    Follows (sameWidth site (first.node :: rest.map RegisterOperand.node))
      (Selection.sameWidth site first rest) := by
  unfold sameWidth Selection.sameWidth
  rw [← List.map_cons, mapM_width, ok_bind, List.map_cons, List.eraseDups_cons, List.length_cons]
  by_cases same : ∀ register ∈ rest, register.width = first.width
  · have none :
        (rest.map RegisterOperand.width).filter (fun width ↦ !width == first.width) = [] := by
      simpa using same
    have all : rest.all (fun register ↦ register.width = first.width) = true := by simpa using same
    rw [none, if_neg (by decide), if_pos all]
    rfl
  · obtain ⟨other, member, differs⟩ : ∃ register ∈ rest, register.width ≠ first.width := by
      simpa using same
    have left : other.width ∈
        ((rest.map RegisterOperand.width).filter fun width ↦ !width == first.width).eraseDups := by
      rw [List.mem_eraseDups, List.mem_filter]
      exact ⟨List.mem_map_of_mem member, by simpa using differs⟩
    have several := List.length_pos_of_mem left
    have notAll : ¬rest.all (fun register ↦ register.width = first.width) = true := by
      simpa using same
    rw [if_pos (by omega), if_neg notAll]
    exact keeps_refuse ..

/-! ## Lists of operands -/

theorem item_node (operands : List Operand) (index : Nat) :
    item (operands.map Operand.node) index =
      orLapse .index (operands[index]?.map Operand.node) := by
  rw [item, List.getElem?_map]

theorem Keeps.expect {counts : List Nat} {operands : List Operand} {next : Unit → Trial Instruction}
    {step : Selected Instruction}
    (counted : operands.length ∈ counts → Follows (next ()) step)
    (wrong : operands.length ∉ counts → step = Selection.wrongCount site counts operands) :
    Follows (Trial.expect site (operands.map Operand.node) counts >>= next) step := by
  unfold Trial.expect
  rw [List.length_map]
  split
  · rename_i enough
    exact counted enough
  · rename_i other
    rw [wrong other]
    rfl

/-- As many operands as one of the counts. -/
theorem Keeps.counted {counts : List Nat} {operands : List Operand}
    {next : Unit → Trial Instruction} {step : Selected Instruction}
    (enough : operands.length ∈ counts) (ended : Follows (next ()) step) :
    Follows (Trial.expect site (operands.map Operand.node) counts >>= next) step :=
  .expect (fun _ ↦ ended) fun wrong ↦ absurd enough wrong

theorem Keeps.miscounted {counts : List Nat} {operands : List Operand}
    {next : Unit → Trial Instruction} (wrong : operands.length ∉ counts) :
    Follows (Trial.expect site (operands.map Operand.node) counts >>= next)
      (Selection.wrongCount site counts operands) :=
  .expect (fun counted ↦ absurd counted wrong) fun _ ↦ rfl

theorem keeps_shift? (operands : List Operand) (index : Nat) :
    Keeps (Option.map ShiftOperand.node) (optionalShift (operands.map Operand.node) index)
      (Selection.shift? operands[index]?) := by
  unfold optionalShift
  rw [List.length_map, item_node]
  split
  · rename_i inside
    rw [List.getElem?_eq_getElem inside]
    obtain ⟨slot, location, kind⟩ := operands[index]
    cases kind <;> rfl
  · rename_i outside
    rw [List.getElem?_eq_none (Nat.le_of_not_lt outside)]
    rfl

/-- The shift that is left when the sources have been taken. -/
theorem keeps_shift?_toList (shift : Option Operand) :
    Keeps (Option.map ShiftOperand.node) (optionalShift (shift.toList.map Operand.node) 0)
      (Selection.shift? shift) := by
  cases shift with
  | none => exact keeps_shift? [] 0
  | some operand => exact keeps_shift? [operand] 0

/-- The shift that comes after two operands. -/
theorem keeps_shift?_third (first second : Operand) (third : Option Operand) :
    Keeps (Option.map ShiftOperand.node)
      (optionalShift ((first :: second :: third.toList).map Operand.node) 2)
      (Selection.shift? third) := by
  cases third with
  | none => exact keeps_shift? [first, second] 2
  | some operand => exact keeps_shift? [first, second, operand] 2

theorem arrange?_of_length {operands : List Operand} (counted : operands.length ∈ [2, 3, 4]) :
    ∃ arrangement rest, Selection.arrange? operands = some arrangement ∧
      operands = arrangement.destination :: rest := by
  rcases operands with _ | ⟨a, _ | ⟨b, _ | ⟨c, _ | ⟨d, _ | ⟨e, rest⟩⟩⟩⟩⟩
  case cons.cons.nil => exact ⟨_, _, rfl, rfl⟩
  case cons.cons.cons.nil =>
    refine ⟨_, [b, c], rfl, ?_⟩
    split <;> rfl
  case cons.cons.cons.cons.nil => exact ⟨_, _, rfl, rfl⟩
  all_goals simp at counted

theorem arrange?_eq_none {operands : List Operand} (wrong : operands.length ∉ [2, 3, 4]) :
    Selection.arrange? operands = none := by
  unfold Selection.arrange?
  split
  · simp at wrong
  · simp at wrong
  · simp at wrong
  · rfl

/-- Two operands, and a third one if there is one. -/
theorem comparands?_of_length {operands : List Operand} (counted : operands.length ∈ [2, 3]) :
    ∃ first second third, operands = first :: second :: third.toList ∧
      Selection.comparands? operands = some (first, second, third) := by
  rcases operands with _ | ⟨a, _ | ⟨b, _ | ⟨c, _ | ⟨d, rest⟩⟩⟩⟩
  case cons.cons.nil => exact ⟨a, b, none, rfl, rfl⟩
  case cons.cons.cons.nil => exact ⟨a, b, some c, rfl, rfl⟩
  all_goals simp at counted

theorem comparands?_eq_none {operands : List Operand} (wrong : operands.length ∉ [2, 3]) :
    Selection.comparands? operands = none := by
  unfold Selection.comparands?
  split
  · simp at wrong
  · simp at wrong
  · rfl

theorem keeps_sources {read : Node → Trial Node} {select : Operand → Selected RegisterOperand}
    (keeps : ∀ operand : Operand, Keeps RegisterOperand.node (read operand.node) (select operand))
    (rd : RegisterOperand) {operands : List Operand} {arrangement : Selection.Arrangement}
    (arranged : Selection.arrange? operands = some arrangement) :
    Keeps (fun rn ↦ (rn.node, arrangement.second.node, arrangement.shift.toList.map Operand.node))
      (sources read rd.node (operands.map Operand.node))
      (Selection.firstSource arrangement rd select) := by
  rcases operands with _ | ⟨a, _ | ⟨b, _ | ⟨c, _ | ⟨d, _ | ⟨e, rest⟩⟩⟩⟩⟩
  case cons.cons.nil =>
    cases arranged
    rfl
  case cons.cons.cons.nil =>
    cases arranged
    have split : sources read rd.node [a.node, b.node, c.node] =
        if c.node.isShift then .ok (rd.node, b.node, [c.node])
        else read b.node >>= fun first ↦ .ok (first, c.node, []) := rfl
    rw [List.map_cons, List.map_cons, List.map_cons, List.map_nil, split, isShift_operand]
    cases Selection.isShift c with
    | true => rfl
    | false => exact (keeps b).reading fun first ↦ rfl
  case cons.cons.cons.cons.nil =>
    cases arranged
    exact (keeps b).reading fun first ↦ rfl
  all_goals cases arranged

end Trial

end MiniA64
