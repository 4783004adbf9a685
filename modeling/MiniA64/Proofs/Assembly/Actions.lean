import MiniA64.Proofs.Assembly.Agreement

/-!
# What a program does

Apart from checks that no limit has a part in, a program does three things: it places bytes, it
binds names and it declares them. The layout and the emission of a program that is accepted under
some limits are, under all limits, walks over the same actions, where sizes are kept.
-/

namespace MiniA64

/-- What a statement does to the code or to the symbols. -/
inductive Action
  | place (location : Location) (data : List UInt8)
  | bind (name : String) (value : Int) (location : Location) (binding : SymbolTable.Binding)
  | declare (name : String) (location : Location)

namespace Action

def isPlace : Action → Bool
  | place _ _ => true
  | _ => false

def layOut (limits : Limits) (layout : Layout) : Action → Except Diagnostic Layout
  | place location data => layout.advance limits location data.length
  | bind name value location binding => layout.define limits name value location binding
  | declare name location => do
    let symbols ← layout.symbols.declare limits.symbols name location
    return { layout with symbols }

def emit (limits : Limits) (emission : Emission) : Action → Except Diagnostic Emission
  | place location data => emission.emit limits location data
  | bind _ _ _ _ => .ok emission
  | declare _ _ => .ok emission

end Action

def Layout.walk (limits : Limits) (layout : Layout) (actions : List Action) : Walk Layout :=
  actions.foldlM (fun layout action ↦ layout.attempt (action.layOut limits layout)) layout

def Emission.walk (limits : Limits) (emission : Emission) (actions : List Action) :
    Except Diagnostic Emission :=
  actions.foldlM (Action.emit limits) emission

theorem Layout.walk_append (limits : Limits) (layout : Layout) (actions more : List Action) :
    layout.walk limits (actions ++ more) = layout.walk limits actions >>= (walk limits · more) :=
  List.foldlM_append

theorem Emission.walk_append (limits : Limits) (emission : Emission) (actions more : List Action) :
    emission.walk limits (actions ++ more) =
      emission.walk limits actions >>= (walk limits · more) :=
  List.foldlM_append

/-- One action is a walk. -/
theorem Layout.walk_single (limits : Limits) (layout : Layout) (action : Action) :
    layout.walk limits [action] = layout.attempt (action.layOut limits layout) := by
  show layout.attempt (action.layOut limits layout) >>= pure = _
  cases layout.attempt (action.layOut limits layout) <;> rfl

theorem Emission.walk_single (limits : Limits) (emission : Emission) (action : Action) :
    emission.walk limits [action] = action.emit limits emission := by
  show action.emit limits emission >>= pure = _
  cases action.emit limits emission <;> rfl

/-! ## Statements -/

/-- Under all limits a layout and an emission are walks over some actions. -/
structure Does (layout : Layout) (emission : Emission) (lays : Limits → Layout.Walk Layout)
    (emits : Limits → Except Diagnostic Emission) (actions : List Action) : Prop where
  layout : ∀ limits, lays limits = layout.walk limits actions
  emission : ∀ limits, emits limits = emission.walk limits actions

section

variable {limits : Limits} {final : SymbolTable} {layout layout' : Layout}
  {emission emission' : Emission}

/-- Arguments that can be declared are declared one after another. -/
theorem exists_actions_declare {arguments : List Operand}
    (laid : arguments.foldlM
      (fun layout argument ↦ layout.attempt (Layout.declare limits layout argument)) layout =
        .ok layout') :
    ∃ actions, (∀ (limits : Limits) (layout : Layout), arguments.foldlM
        (fun layout argument ↦ layout.attempt (Layout.declare limits layout argument)) layout =
          layout.walk limits actions) ∧
      ∀ (limits : Limits) (emission : Emission), emission.walk limits actions = .ok emission := by
  induction arguments generalizing layout with
  | nil => exact ⟨[], fun _ _ ↦ rfl, fun _ _ ↦ rfl⟩
  | cons argument rest ih =>
    rw [List.foldlM_cons] at laid
    obtain ⟨next, declared, laid⟩ := Selection.bind_eq_ok.mp laid
    obtain ⟨actions, same, quiet⟩ := ih laid
    obtain ⟨slot, location, kind⟩ := argument
    cases kind with
    | symbol name =>
      refine ⟨.declare name location :: actions, fun limits layout ↦ ?_, quiet⟩
      rw [List.foldlM_cons, Layout.walk, List.foldlM_cons]
      exact congrArg _ (funext (same limits))
    | _ => cases Layout.attempt_eq_ok.mp declared

/-- Arguments that have bytes are placed one after another. -/
theorem exists_actions_place {arguments : List Operand}
    {step : Limits → Layout → Operand → Except Diagnostic Layout}
    {data : Operand → Except Diagnostic (List UInt8)}
    (agree : ∀ {argument bytes}, data argument = .ok bytes → ∀ limits layout,
      step limits layout argument = layout.advance limits argument.location bytes.length)
    (emitted : arguments.foldlM (fun emission argument ↦ do
      emission.emit limits argument.location (← data argument)) emission = .ok emission') :
    ∃ actions, (∀ (limits : Limits) (layout : Layout), arguments.foldlM
        (fun layout argument ↦ layout.attempt (step limits layout argument)) layout =
          layout.walk limits actions) ∧
      ∀ (limits : Limits) (emission : Emission), arguments.foldlM (fun emission argument ↦ do
        emission.emit limits argument.location (← data argument)) emission =
          emission.walk limits actions := by
  induction arguments generalizing emission with
  | nil => exact ⟨[], fun _ _ ↦ rfl, fun _ _ ↦ rfl⟩
  | cons argument rest ih =>
    rw [List.foldlM_cons] at emitted
    obtain ⟨next, first, emitted⟩ := Selection.bind_eq_ok.mp emitted
    obtain ⟨bytes, known, -⟩ := Selection.bind_eq_ok.mp first
    obtain ⟨actions, lays, emits⟩ := ih emitted
    refine ⟨.place argument.location bytes :: actions, fun limits layout ↦ ?_,
      fun limits emission ↦ ?_⟩
    · rw [List.foldlM_cons, Layout.walk, List.foldlM_cons, agree known]
      exact congrArg _ (funext (lays limits))
    · rw [List.foldlM_cons, Emission.walk, List.foldlM_cons, known]
      exact congrArg _ (funext (emits limits))

/-- A constant is bound to the value that it has, whatever the limits are. -/
theorem exists_action_bind {directive : Directive} {location : Location}
    {arguments : List Operand}
    (laid : layout.bind limits directive location arguments = .ok layout') :
    ∃ name value binding, ∀ limits : Limits,
      layout.bind limits directive location arguments =
        (Action.bind name value location binding).layOut limits layout := by
  unfold Layout.bind at laid ⊢
  split at laid
  · rename_i name argument
    dsimp only at laid ⊢
    split at laid <;> obtain ⟨value, known, -⟩ := Selection.bind_eq_ok.mp laid
    all_goals
      refine ⟨name, value, if directive = .set then .variable else .constant, fun limits ↦ ?_⟩
      rw [known]
      rfl
  · cases laid

theorem does_declare {location : Location} {absent : DirectiveError} {arguments : List Operand}
    (laid : layout.each location absent arguments (Layout.declare limits) = .ok layout') :
    ∃ actions, Does layout emission
      (fun limits ↦ layout.each location absent arguments (Layout.declare limits))
      (fun _ ↦ .ok emission) actions := by
  obtain ⟨actions, lays, quiet⟩ := exists_actions_declare (Layout.each_ok laid)
  refine ⟨actions, fun limits ↦ ?_, fun limits ↦ (quiet limits emission).symm⟩
  rw [← lays]
  cases arguments with
  | nil =>
    have refused : layout.attempt (Padding.refuse location absent) = .ok layout' := laid
    cases Layout.attempt_eq_ok.mp refused
  | cons => rfl

theorem does_place {location place : Location} {absent absent' : DirectiveError}
    {arguments : List Operand} {step : Limits → Layout → Operand → Except Diagnostic Layout}
    {data : Operand → Except Diagnostic (List UInt8)}
    (agree : ∀ {argument bytes}, data argument = .ok bytes → ∀ limits layout,
      step limits layout argument = layout.advance limits argument.location bytes.length)
    (emitted : emission.each limits place absent' arguments data = .ok emission') :
    ∃ actions, Does layout emission
      (fun limits ↦ layout.each location absent arguments (step limits))
      (fun limits ↦ emission.each limits place absent' arguments data) actions := by
  obtain ⟨actions, lays, emits⟩ := exists_actions_place agree (Emission.each_ok emitted)
  refine ⟨actions, fun limits ↦ ?_, fun limits ↦ ?_⟩
  · rw [← lays]
    cases arguments with
    | nil => cases emitted
    | cons => rfl
  · rw [← emits]
    cases arguments with
    | nil => cases emitted
    | cons => rfl

/-- Padding makes room for its bytes. -/
theorem Layout.walk_padding (limits : Limits) (layout : Layout) (location : Location)
    {count : Nat} {padding : Padding} (same : padding.count = count) :
    layout.attempt (layout.advance limits location count) =
      layout.walk limits [.place location padding.bytes] := by
  rw [walk_single, Action.layOut, padding.length_bytes, same]

theorem Emission.walk_padding (limits : Limits) (emission : Emission) (location : Location)
    (padding : Padding) :
    emission.emitPadding limits location padding =
      emission.walk limits [.place location padding.bytes] := by
  rw [walk_single, Action.emit, emit, padding.length_bytes]
  rfl

/-- An alignment that is reached already does nothing. -/
theorem does_align {name : Directive} {location : Location} {arguments : List Operand}
    {padding padding' : Padding}
    (known : Padding.ofAlignment layout.symbols name location arguments layout.size = .ok padding)
    (known' : Padding.ofAlignment final name location arguments emission.address = .ok padding')
    (count : padding'.count = padding.count) :
    ∃ actions, Does layout emission
      (fun limits ↦ layout.attempt (layout.align limits name location arguments))
      (fun limits ↦ do
        let padding ← Padding.ofAlignment final name location arguments emission.address
        if padding.count = 0 then return emission
        else emission.emitPadding limits location padding) actions := by
  by_cases reached : padding.count = 0
  · refine ⟨[], fun limits ↦ ?_, fun limits ↦ ?_⟩
    · rw [Layout.align, known]
      exact congrArg layout.attempt (if_pos reached)
    · rw [known']
      exact if_pos (count.trans reached)
  · refine ⟨[.place location padding'.bytes], fun limits ↦ ?_, fun limits ↦ ?_⟩
    · rw [Layout.align, known]
      exact (congrArg layout.attempt (if_neg reached)).trans
        (layout.walk_padding limits location count)
    · rw [known']
      exact (if_neg (count ▸ reached)).trans (emission.walk_padding limits location padding')

/-- What a statement that is accepted does does not depend on the limits. -/
theorem exists_actions_statement {statement : Statement}
    (laid : layout.statement limits statement = .ok layout')
    (emitted : emission.statement limits final statement = .ok emission')
    (kept : ∀ name value, statement.sizedBy? = some name →
      layout.symbols.constant? name = some value → final.constant? name = some value)
    (same : emission.address = layout.size) :
    ∃ actions, Does layout emission (fun limits ↦ layout.statement limits statement)
      (fun limits ↦ emission.statement limits final statement) actions := by
  obtain ⟨slot, location, kind⟩ := statement
  cases kind with
  | label name =>
    refine ⟨[.bind name layout.size location .label], fun limits ↦ ?_, fun limits ↦ rfl⟩
    rw [Layout.walk_single]
    rfl
  | instruction mnemonic spelling operands =>
    obtain ⟨instruction, selected, -⟩ := Emission.instruction_ok emitted
    refine ⟨[.place location instruction.encode.toBytes], fun limits ↦ ?_, fun limits ↦ ?_⟩
    · rw [Layout.walk_single, Action.layOut, Word.length_toBytes]
      rfl
    · rw [Emission.walk_single]
      show emission.instruction limits final location mnemonic spelling operands = _
      rw [Emission.instruction, selected]
      rfl
  | directive name arguments =>
    cases name with
    | text | data | bss | external =>
      exact ⟨[], fun limits ↦ rfl, fun limits ↦ rfl⟩
    | namedSection =>
      obtain ⟨_, checked, -⟩ := Selection.bind_eq_ok.mp emitted
      refine ⟨[], fun limits ↦ ?_, fun limits ↦ ?_⟩
      · show (layout.attempt (Layout.checkSection location arguments) >>= fun _ ↦ .ok layout) = _
        rw [checked]
        rfl
      · show (Layout.checkSection location arguments >>= fun _ ↦ .ok emission) = _
        rw [checked]
        rfl
    | global | globl =>
      exact does_declare laid
    | equ | set =>
      obtain ⟨constant, value, binding, bound⟩ :=
        exists_action_bind (Layout.attempt_eq_ok.mp laid)
      refine ⟨[.bind constant value location binding], fun limits ↦ ?_, fun limits ↦ rfl⟩
      rw [Layout.walk_single, ← bound]
      rfl
    | align | balign | p2align =>
      obtain ⟨padding, known, -⟩ := Layout.align_ok (Layout.attempt_eq_ok.mp laid)
      obtain ⟨padding', known', -⟩ := Emission.align_ok emitted
      have count : padding'.count = padding.count := by
        rw [same] at known'
        cases arguments with
        | nil => cases known
        | cons size rest => exact Padding.count_ofAlignment kept known known'
      exact does_align known known' count
    | byte | hword | word | quad =>
      exact does_place (fun data limits layout ↦ by rw [Data.length_ofValue data]) emitted
    | ascii | asciz | string =>
      refine does_place (fun data limits layout ↦ ?_) emitted
      rw [Layout.placeString, data]
      rfl
    | space | skip =>
      obtain ⟨padding, known, -⟩ := Layout.reserve_ok (Layout.attempt_eq_ok.mp laid)
      obtain ⟨padding', known', -⟩ := Selection.bind_eq_ok.mp emitted
      have count : padding'.count = padding.count := by
        cases arguments with
        | nil => cases known
        | cons size rest => exact Padding.count_ofSpace kept known known'
      refine ⟨[.place location padding'.bytes], fun limits ↦ ?_, fun limits ↦ ?_⟩
      · exact (congrArg (fun result ↦ layout.attempt (result >>= _)) known).trans
          (layout.walk_padding limits location count)
      · exact (congrArg (· >>= _) known').trans (emission.walk_padding limits location padding')

end

end MiniA64
