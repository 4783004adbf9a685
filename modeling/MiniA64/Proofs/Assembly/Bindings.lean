import MiniA64.Assembly.Layout
import MiniA64.Proofs.Assembly.Checks

/-!
# Bound names

What a name is bound to in a symbol table, and what the operations on a table and the statements
of a layout do to that. A table extends another one if it keeps everything that is bound there.
A statement of a layout extends the table unless it is a `set` of a name that is bound already,
so a table only grows along a program in which no such statement occurs.
-/

namespace MiniA64

namespace SymbolTable

variable {table table' : SymbolTable} {name : String}

/-- The value of a bound name, and whether it is bound as a constant. -/
def bound? (table : SymbolTable) (name : String) : Option (Int × Bool) :=
  ((table.find? name).filter (·.isDefined)).map fun symbol ↦ (symbol.value, symbol.isConstant)

theorem value?_eq_bound? : table.value? name = (table.bound? name).map (·.1) := by
  rw [value?, bound?, Option.map_map]
  rfl

theorem constant?_eq_bound? :
    table.constant? name = (table.bound? name).bind fun bound ↦
      if bound.2 then some bound.1 else none := by
  rw [constant?, bound?]
  cases table.find? name with
  | none => rfl
  | some symbol => cases hdefined : symbol.isDefined <;> simp [Option.filter, hdefined]

/-! ## Operations -/

theorem find?_replace (symbol : Symbol) :
    (table.replace symbol).find? name =
      if name = symbol.name then (table.find? name).map fun _ ↦ symbol else table.find? name := by
  obtain ⟨entries⟩ := table
  simp only [replace, find?]
  induction entries with
  | nil => simp
  | cons entry rest ih =>
    rw [List.map_cons, List.find?_cons, List.find?_cons, ih]
    by_cases here : entry.name = symbol.name
    · rw [if_pos here, here]
      by_cases same : name = symbol.name
      · simp [same]
      · simp [same, Ne.symm same]
    · rw [if_neg here]
      by_cases found : entry.name = name
      · simp [found, show name ≠ symbol.name from found ▸ here]
      · simp [found]

theorem name_of_find? {symbol : Symbol} (h : table.find? name = some symbol) :
    symbol.name = name := by
  have matched := List.find?_some h
  exact of_decide_eq_true matched

theorem find?_add {limit : Int} {symbol : Symbol} (h : table.add limit symbol = .ok table') :
    table'.find? name =
      (table.find? name).or (if symbol.name = name then some symbol else none) := by
  rw [add] at h
  split at h
  · cases h
  cases h
  simp only [find?, List.find?_append, List.find?_singleton, decide_eq_true_eq]

theorem bound?_declare {limit : Int} {declared : String} {location : Location}
    (h : table.declare limit declared location = .ok table') :
    table'.bound? name = table.bound? name := by
  rw [declare] at h
  split at h
  · rename_i symbol hfind
    cases h
    have named := name_of_find? hfind
    rw [bound?, find?_replace]
    split
    · rename_i same
      rw [bound?, same, named, hfind]
      cases hdefined : symbol.isDefined <;> simp [Option.filter, hdefined]
    · rfl
  · rename_i hfind
    rw [bound?, find?_add h, bound?]
    split
    · rename_i same
      rw [← same, hfind]
      rfl
    · rw [Option.or_none]

/--
Binding a name gives it the value and leaves the others. Only a variable may be bound in the place
of an older binding, and only in that of a constant.
-/
theorem define_ok {limit value : Int} {bound : String} {location : Location} {binding : Binding}
    (h : table.define limit bound value location binding = .ok table') :
    (table.bound? bound = none ∨
      binding = .variable ∧ ∃ old, table.bound? bound = some (old, true)) ∧
      ∀ name, table'.bound? name =
        if name = bound then some (value, binding != .label) else table.bound? name := by
  rw [define] at h
  split at h
  · rename_i symbol hfind
    have named := name_of_find? hfind
    split at h
    · rename_i mayReplace
      cases h
      constructor
      · rw [Binding.mayReplace, Bool.or_eq_true, Bool.and_eq_true] at mayReplace
        cases hdefined : symbol.isDefined with
        | false => exact .inl (by simp [bound?, hfind, Option.filter, hdefined])
        | true =>
          obtain ⟨redefinable, constant⟩ := mayReplace.resolve_left (by simp [hdefined])
          exact .inr ⟨of_decide_eq_true redefinable, symbol.value,
            by simp [bound?, hfind, Option.filter, hdefined, constant]⟩
      · intro name
        rw [bound?, find?_replace, bound?]
        simp only [named]
        split
        · rename_i same
          simp [same, hfind, Option.filter]
        · rfl
    · cases h
  · rename_i hfind
    refine ⟨by simp [bound?, hfind], fun name ↦ ?_⟩
    rw [bound?, find?_add h, bound?]
    by_cases same : name = bound
    · simp [same, hfind, Option.filter]
    · simp [same, Ne.symm same]

/-! ## Extension -/

/-- Everything that is bound in a table is bound in the other one too, and to the same. -/
def Extends (table' table : SymbolTable) : Prop :=
  ∀ name bound, table.bound? name = some bound → table'.bound? name = some bound

theorem Extends.refl (table : SymbolTable) : table.Extends table := fun _ _ h ↦ h

theorem Extends.trans {table'' : SymbolTable} (more : table''.Extends table')
    (some : table'.Extends table) : table''.Extends table :=
  fun name bound h ↦ more name bound (some name bound h)

theorem Extends.constant? (more : table'.Extends table) {value : Int}
    (h : table.constant? name = some value) : table'.constant? name = some value := by
  rw [constant?_eq_bound?] at h ⊢
  obtain ⟨bound, hbound, hvalue⟩ := Option.bind_eq_some_iff.mp h
  rw [more name bound hbound]
  exact hvalue

end SymbolTable

/-! ## Statements that bind names -/

namespace Statement

/-- The name that a statement binds. -/
def bound? (statement : Statement) : Option String :=
  match statement.kind with
  | .label name => some name
  | .directive .equ (⟨_, _, .symbol name⟩ :: _) => some name
  | .directive .set (⟨_, _, .symbol name⟩ :: _) => some name
  | _ => none

/-- The name that a statement binds even if it is bound already. -/
def assigned? (statement : Statement) : Option String :=
  match statement.kind with
  | .directive .set (⟨_, _, .symbol name⟩ :: _) => some name
  | _ => none

end Statement

/-- No `set` binds a name that an earlier statement has bound. -/
def SetsOnce (statements : List Statement) : Prop :=
  statements.Pairwise fun earlier later ↦
    ∀ name, later.assigned? = some name → earlier.bound? ≠ some name

namespace Layout

variable {limits : Limits} {layout layout' : Layout}

theorem attempt_eq_ok {step : Except Diagnostic Layout} :
    layout.attempt step = .ok layout' ↔ step = .ok layout' := by
  constructor
  · intro h
    cases step with
    | ok reached =>
      cases h
      rfl
    | error diagnostic => cases h
  · rintro rfl
    rfl

theorem each_ok {location : Location} {absent : DirectiveError} {arguments : List Operand}
    {step : Layout → Operand → Except Diagnostic Layout}
    (h : layout.each location absent arguments step = .ok layout') :
    arguments.foldlM (fun layout argument ↦ layout.attempt (step layout argument)) layout =
      .ok layout' := by
  rw [each] at h
  split at h
  · cases attempt_eq_ok.mp h
  · exact h

/-- What every argument preserves is preserved by all of them. -/
theorem each_induction {location : Location} {absent : DirectiveError} {arguments : List Operand}
    {step : Layout → Operand → Except Diagnostic Layout} (kept : Layout → Layout → Prop)
    (refl : ∀ layout, kept layout layout)
    (trans : ∀ {first second third}, kept first second → kept second third → kept first third)
    (each : ∀ {layout argument layout'}, step layout argument = .ok layout' → kept layout layout')
    (h : layout.each location absent arguments step = .ok layout') : kept layout layout' := by
  have folded := each_ok h
  clear h
  induction arguments generalizing layout with
  | nil =>
    cases folded
    exact refl _
  | cons argument rest ih =>
    rw [List.foldlM_cons] at folded
    obtain ⟨next, hnext, folded⟩ := Selection.bind_eq_ok.mp folded
    exact trans (each (attempt_eq_ok.mp hnext)) (ih folded)

/-! ## Steps of a layout -/

theorem advance_ok {location : Location} {size : Nat}
    (h : layout.advance limits location size = .ok layout') :
    layout' = { layout with size := layout.size + size } := by
  rw [advance] at h
  split at h
  · cases h
  · exact (Except.ok.inj h).symm

theorem define_ok {name : String} {value : Int} {location : Location}
    {binding : SymbolTable.Binding}
    (h : layout.define limits name value location binding = .ok layout') :
    layout'.size = layout.size ∧
      layout.symbols.define limits.symbols name value location binding = .ok layout'.symbols := by
  obtain ⟨symbols, hsymbols, result⟩ := Selection.bind_eq_ok.mp h
  cases Selection.pure_eq_ok.mp result
  exact ⟨rfl, hsymbols⟩

theorem declare_ok {argument : Operand} (h : layout.declare limits argument = .ok layout') :
    layout'.size = layout.size ∧
      ∀ name, layout'.symbols.bound? name = layout.symbols.bound? name := by
  rw [declare] at h
  split at h
  · obtain ⟨symbols, hsymbols, result⟩ := Selection.bind_eq_ok.mp h
    cases Selection.pure_eq_ok.mp result
    exact ⟨rfl, fun name ↦ SymbolTable.bound?_declare hsymbols⟩
  · cases h

theorem bind_ok {directive : Directive} {location : Location} {arguments : List Operand}
    (h : layout.bind limits directive location arguments = .ok layout') :
    ∃ slot place name rest value,
      arguments = ⟨slot, place, .symbol name⟩ :: rest ∧
        layout.define limits name value location
          (if directive = .set then .variable else .constant) = .ok layout' := by
  unfold Layout.bind at h
  generalize (if directive = .set then SymbolTable.Binding.variable else .constant) = binding
    at h ⊢
  split at h
  · split at h <;> obtain ⟨value, -, h⟩ := Selection.bind_eq_ok.mp h
    all_goals exact ⟨_, _, _, _, value, rfl, h⟩
  · cases h

theorem align_ok {directive : Directive} {location : Location} {arguments : List Operand}
    (h : layout.align limits directive location arguments = .ok layout') :
    ∃ padding,
      Padding.ofAlignment layout.symbols directive location arguments layout.size = .ok padding ∧
        layout' = { layout with size := layout.size + padding.count } := by
  obtain ⟨padding, hpadding, h⟩ := Selection.bind_eq_ok.mp h
  refine ⟨padding, hpadding, ?_⟩
  split at h
  · rename_i reached
    cases Selection.pure_eq_ok.mp h
    rw [reached]
    rfl
  · exact advance_ok h

theorem reserve_ok {location : Location} {arguments : List Operand}
    (h : layout.reserve limits location arguments = .ok layout') :
    ∃ padding, Padding.ofSpace layout.symbols location arguments = .ok padding ∧
      layout' = { layout with size := layout.size + padding.count } := by
  obtain ⟨padding, hpadding, h⟩ := Selection.bind_eq_ok.mp h
  exact ⟨padding, hpadding, advance_ok h⟩

theorem placeString_ok {directive : Directive} {argument : Operand}
    (h : layout.placeString limits directive argument = .ok layout') :
    ∃ data, Data.ofString directive argument = .ok data ∧
      layout' = { layout with size := layout.size + data.length } := by
  obtain ⟨data, hdata, h⟩ := Selection.bind_eq_ok.mp h
  exact ⟨data, hdata, advance_ok h⟩

/-! ## Bindings along a layout -/

/--
What a statement may change in the symbols: it binds its name, which has to be free or, if the
statement sets it, a constant.
-/
structure Binds (statement : Statement) (symbols symbols' : SymbolTable) : Prop where
  free : ∀ name, statement.bound? = some name → symbols.bound? name = none ∨
    statement.assigned? = some name ∧ ∃ old, symbols.bound? name = some (old, true)
  others : ∀ name, statement.bound? ≠ some name → symbols'.bound? name = symbols.bound? name

/-- A statement that binds no name keeps all bindings. -/
theorem Binds.of_same {statement : Statement} {symbols symbols' : SymbolTable}
    (same : ∀ name, symbols'.bound? name = symbols.bound? name)
    (none : statement.bound? = none) : Binds statement symbols symbols' :=
  ⟨fun name bound ↦ by simp [none] at bound, fun name _ ↦ same name⟩

theorem Binds.of_define {statement : Statement} {name : String} {value : Int}
    {location : Location} {binding : SymbolTable.Binding}
    (h : layout.define limits name value location binding = .ok layout')
    (bound : statement.bound? = some name)
    (redefinable : binding = .variable → statement.assigned? = some name) :
    Binds statement layout.symbols layout'.symbols := by
  obtain ⟨-, defined⟩ := define_ok h
  obtain ⟨free, bindings⟩ := SymbolTable.define_ok defined
  constructor
  · intro name' bound'
    cases bound.symm.trans bound'
    exact free.imp_right (And.imp_left redefinable)
  · intro name' other
    rw [bindings, if_neg]
    rintro rfl
    exact other bound

theorem symbols_each {location : Location} {absent : DirectiveError} {arguments : List Operand}
    {step : Layout → Operand → Except Diagnostic Layout}
    (kept : ∀ {layout argument layout'}, step layout argument = .ok layout' →
      ∀ name, layout'.symbols.bound? name = layout.symbols.bound? name)
    (h : layout.each location absent arguments step = .ok layout') (name : String) :
    layout'.symbols.bound? name = layout.symbols.bound? name :=
  each_induction
    (fun layout layout' ↦ layout'.symbols.bound? name = layout.symbols.bound? name)
    (fun _ ↦ rfl) (fun first second ↦ second.trans first) (fun step ↦ kept step name) h

theorem binds_statement {statement : Statement}
    (h : layout.statement limits statement = .ok layout') :
    Binds statement layout.symbols layout'.symbols := by
  obtain ⟨slot, location, kind⟩ := statement
  cases kind with
  | label name => exact .of_define (attempt_eq_ok.mp h) rfl nofun
  | instruction mnemonic spelling operands =>
    cases advance_ok (attempt_eq_ok.mp h)
    exact .of_same (fun _ ↦ rfl) rfl
  | directive name arguments =>
    cases name with
    | text | data | bss | external =>
      cases h
      exact .of_same (fun _ ↦ rfl) rfl
    | namedSection =>
      obtain ⟨_, -, result⟩ := Selection.bind_eq_ok.mp h
      cases Selection.pure_eq_ok.mp result
      exact .of_same (fun _ ↦ rfl) rfl
    | global | globl =>
      exact .of_same (fun name ↦ symbols_each (fun step ↦ (declare_ok step).2) h name) rfl
    | equ | set =>
      obtain ⟨_, _, name, rest, value, rfl, defined⟩ := bind_ok (attempt_eq_ok.mp h)
      exact .of_define defined rfl (by simp [Statement.assigned?])
    | align | balign | p2align =>
      obtain ⟨padding, -, rfl⟩ := align_ok (attempt_eq_ok.mp h)
      exact .of_same (fun _ ↦ rfl) rfl
    | byte | hword | word | quad =>
      refine .of_same (fun name ↦ symbols_each (fun step name ↦ ?_) h name) rfl
      rw [advance_ok step]
    | ascii | asciz | string =>
      refine .of_same (fun name ↦ symbols_each (fun step name ↦ ?_) h name) rfl
      obtain ⟨data, -, rfl⟩ := placeString_ok step
      rfl
    | space | skip =>
      obtain ⟨padding, -, rfl⟩ := reserve_ok (attempt_eq_ok.mp h)
      exact .of_same (fun _ ↦ rfl) rfl

/-- A bound name keeps its value, unless it is a constant that the statement sets. -/
theorem Binds.keeps {statement : Statement} {symbols symbols' : SymbolTable} {name : String}
    {value : Int} {constant : Bool} (binds : Binds statement symbols symbols')
    (bound : symbols.bound? name = some (value, constant))
    (unset : constant = true → statement.assigned? ≠ some name) :
    symbols'.bound? name = some (value, constant) := by
  rw [binds.others name, bound]
  intro binding
  rcases binds.free name binding with free | ⟨assigned, old, hold⟩
  · rw [free] at bound
    cases bound
  · cases bound.symm.trans hold
    exact unset rfl assigned

/-- Along some statements too. A label is never set. -/
theorem keeps_walk {statements : List Statement} {name : String} {value : Int} {constant : Bool}
    (h : statements.foldlM (statement limits) layout = .ok layout')
    (bound : layout.symbols.bound? name = some (value, constant))
    (unset : constant = true → ∀ statement ∈ statements, statement.assigned? ≠ some name) :
    layout'.symbols.bound? name = some (value, constant) := by
  induction statements generalizing layout with
  | nil =>
    cases h
    exact bound
  | cons statement rest ih =>
    rw [List.foldlM_cons] at h
    obtain ⟨next, hnext, h⟩ := Selection.bind_eq_ok.mp h
    have here := (binds_statement hnext).keeps bound fun isConstant ↦
      unset isConstant statement List.mem_cons_self
    exact ih h here fun isConstant other member ↦
      unset isConstant other (List.mem_cons_of_mem _ member)

/-- The names that the statements may bind over an earlier binding are still free. -/
def Free (symbols : SymbolTable) (statements : List Statement) : Prop :=
  ∀ statement ∈ statements, ∀ name, statement.assigned? = some name → symbols.bound? name = none

theorem free_empty (statements : List Statement) : Free .empty statements :=
  fun _ _ _ _ ↦ rfl

theorem Binds.extends {statement : Statement} {symbols symbols' : SymbolTable}
    (binds : Binds statement symbols symbols')
    (free : ∀ name, statement.assigned? = some name → symbols.bound? name = none) :
    symbols'.Extends symbols := by
  intro name bound h
  rw [binds.others name, h]
  intro this
  have unbound : symbols.bound? name = none := by
    rcases binds.free name this with unbound | ⟨redefined, -⟩
    · exact unbound
    · exact free name redefined
  rw [unbound] at h
  cases h

/-- A statement that sets no name anew keeps all bindings, and what is set later stays free. -/
theorem extends_of_statement {statement : Statement} {later : List Statement}
    (once : SetsOnce (statement :: later)) (free : Free layout.symbols (statement :: later))
    (h : layout.statement limits statement = .ok layout') :
    layout'.symbols.Extends layout.symbols ∧ Free layout'.symbols later := by
  have binds := binds_statement h
  refine ⟨binds.extends (free statement List.mem_cons_self), fun other member name redefined ↦ ?_⟩
  have apart := (List.pairwise_cons.mp once).1
  rw [binds.others name (apart other member name redefined)]
  exact free other (List.mem_cons_of_mem _ member) name redefined

/-- Along a program that sets no name anew all bindings are kept. -/
theorem extends_of_walk {earlier later : List Statement} (once : SetsOnce (earlier ++ later))
    (free : Free layout.symbols (earlier ++ later))
    (h : earlier.foldlM (statement limits) layout = .ok layout') :
    layout'.symbols.Extends layout.symbols ∧ Free layout'.symbols later := by
  induction earlier generalizing layout with
  | nil =>
    cases h
    exact ⟨.refl _, free⟩
  | cons statement rest ih =>
    rw [List.foldlM_cons] at h
    obtain ⟨next, hnext, h⟩ := Selection.bind_eq_ok.mp h
    obtain ⟨grown, still⟩ := extends_of_statement once free hnext
    obtain ⟨more, done⟩ := ih (List.pairwise_cons.mp once).2 still h
    exact ⟨more.trans grown, done⟩

end Layout

end MiniA64
