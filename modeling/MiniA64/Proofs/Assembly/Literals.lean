import MiniA64.Proofs.Assembly.Limits
import MiniA64.Proofs.Assembly.Meanings

/-!
# Constants and their literals

A name that `equ` binds to a number and that nothing else binds means this number from there on.
Where the number stands in the place of the name, both walks over a program go on alike: the first
one lays out the same sizes and binds the same symbols, and the second one emits the same bytes.
-/

namespace MiniA64

/-! ## Padding and data -/

section

variable {symbols symbols' : SymbolTable} {argument argument' : Operand}
  {arguments arguments' : List Operand} {location location' : Location}

namespace Padding

theorem alike_constant (moved : symbols.Moved symbols') (means : argument.Means symbols argument')
    (what : String) :
    Alike Eq (constant symbols what argument) (constant symbols' what argument') := by
  obtain ⟨⟨kind⟩⟩ | @⟨name, value, bound⟩ := means
  · cases kind with
    | immediate value => exact .ok rfl
    | symbol name =>
      unfold constant
      dsimp only
      rw [moved.constant? name]
      cases symbols.constant? name with
      | none => exact .refused
      | some value => exact .ok rfl
    | _ => exact .refused
  · unfold constant
    dsimp only
    rw [bound]
    exact .ok rfl

theorem alike_fillOf {fill fill' : Option Operand} (moved : symbols.Moved symbols')
    (means : Option.Rel (Operand.Means symbols) fill fill') :
    Alike Eq (fillOf symbols fill) (fillOf symbols' fill') := by
  obtain means | _ := means
  · refine (alike_constant moved means _).bind ?_
    rintro value _ rfl
    exact .ok rfl
  · exact .ok rfl

theorem rel_arguments? (means : List.Forall₂ (Operand.Means symbols) arguments arguments') :
    Option.Rel
      (fun (parts parts' : Operand × Option Operand) ↦
        parts.1.Means symbols parts'.1 ∧ Option.Rel (Operand.Means symbols) parts.2 parts'.2)
      (arguments? arguments) (arguments? arguments') := by
  rcases means with _ | ⟨size, _ | ⟨fill, _ | _⟩⟩
  case cons.nil => exact .some ⟨size, .none⟩
  case cons.cons.nil => exact .some ⟨size, .some fill⟩
  all_goals exact .none

theorem alike_boundary (directive : Directive) (amount : Int) :
    Alike Eq (boundary directive location amount) (boundary directive location' amount) :=
  .ite (fun _ ↦ .ite (fun _ ↦ .ok rfl) fun _ ↦ .refused)
    fun _ ↦ .ite (fun _ ↦ .ok rfl) fun _ ↦ .refused

theorem alike_ofAlignment (moved : symbols.Moved symbols')
    (means : List.Forall₂ (Operand.Means symbols) arguments arguments') (directive : Directive)
    (address : Nat) :
    Alike Eq (ofAlignment symbols directive location arguments address)
      (ofAlignment symbols' directive location' arguments' address) := by
  unfold ofAlignment
  generalize arguments? arguments = found, arguments? arguments' = found', rel_arguments? means =
    same
  obtain @⟨⟨size, fill⟩, ⟨size', fill'⟩, sizes, fills⟩ | _ := same
  case none => exact .refused
  refine (alike_constant moved sizes _).bind ?_
  rintro amount _ rfl
  refine (alike_boundary directive amount).bind ?_
  rintro boundary _ rfl
  refine (alike_fillOf moved fills).bind ?_
  rintro byte _ rfl
  exact .ok rfl

theorem alike_ofSpace (moved : symbols.Moved symbols')
    (means : List.Forall₂ (Operand.Means symbols) arguments arguments') :
    Alike Eq (ofSpace symbols location arguments) (ofSpace symbols' location' arguments') := by
  unfold ofSpace
  generalize arguments? arguments = found, arguments? arguments' = found', rel_arguments? means =
    same
  obtain @⟨⟨size, fill⟩, ⟨size', fill'⟩, sizes, fills⟩ | _ := same
  case none => exact .refused
  refine (alike_constant moved sizes _).bind ?_
  rintro count _ rfl
  refine .ite (fun _ ↦ .refused) fun _ ↦ ?_
  refine (alike_fillOf moved fills).bind ?_
  rintro byte _ rfl
  exact .ok rfl

end Padding

namespace Data

theorem alike_ofValue (moved : symbols.Moved symbols') (means : argument.Means symbols argument')
    (width : Nat) :
    Alike Eq (ofValue symbols width argument) (ofValue symbols' width argument') := by
  have fits {location location' : Location} (value : Int) :
      Alike Eq
        (if value < -2 ^ (8 * width - 1) ∨ 2 ^ (8 * width) ≤ value then
          Selection.outOfRange location value (.data width)
        else return toLittleEndian width (value % 256 ^ width).toNat : Selected (List UInt8))
        (if value < -2 ^ (8 * width - 1) ∨ 2 ^ (8 * width) ≤ value then
          Selection.outOfRange location' value (.data width)
        else return toLittleEndian width (value % 256 ^ width).toNat : Selected (List UInt8)) :=
    .ite (fun _ ↦ .refused) fun _ ↦ .ok rfl
  obtain ⟨⟨kind⟩⟩ | @⟨name, value, bound⟩ := means
  · cases kind with
    | immediate value => exact fits value
    | symbol name =>
      refine (moved.alike_resolve name).bind ?_
      rintro value _ rfl
      exact fits value
    | _ => exact .refused
  · unfold ofValue
    dsimp only
    rw [SymbolTable.resolve_of_constant? bound]
    exact fits value

theorem alike_ofString (same : argument.Moved argument') (directive : Directive) :
    Alike Eq (ofString directive argument) (ofString directive argument') := by
  obtain ⟨kind⟩ := same
  cases kind with
  | string raw => exact .ok rfl
  | _ => exact .refused

end Data

end

/-! ## Statements -/

/-- The directives whose arguments are values. To the others a symbol is a name to deal with. -/
def Directive.takesValues : Directive → Bool
  | align | balign | p2align | byte | hword | word | quad | space | skip => true
  | _ => false

/--
The same statements, wherever they and their operands stand, up to a relation between the operands
that they take as values.
-/
inductive Statement.Like (values : Operand → Operand → Prop) : Statement → Statement → Prop
  | label (name : String) {slot slot' : Nat} {location location' : Location} :
    Like values ⟨slot, location, .label name⟩ ⟨slot', location', .label name⟩
  | instruction (mnemonic : Mnemonic) (spelling : String) {operands operands' : List Operand}
    (like : List.Forall₂ (if mnemonic.takesValues then values else Operand.Moved)
      operands operands')
    {slot slot' : Nat} {location location' : Location} :
    Like values ⟨slot, location, .instruction mnemonic spelling operands⟩
      ⟨slot', location', .instruction mnemonic spelling operands'⟩
  | directive (name : Directive) {arguments arguments' : List Operand}
    (like : List.Forall₂ (if name.takesValues then values else Operand.Moved)
      arguments arguments')
    {slot slot' : Nat} {location location' : Location} :
    Like values ⟨slot, location, .directive name arguments⟩
      ⟨slot', location', .directive name arguments'⟩

theorem Statement.Like.mono {values values' : Operand → Operand → Prop}
    {statement other : Statement}
    (weaker : ∀ operand operand', values operand operand' → values' operand operand')
    (like : statement.Like values other) : statement.Like values' other := by
  cases like with
  | label name => exact .label name
  | instruction mnemonic spelling like =>
    refine .instruction mnemonic spelling (like.imp fun operand operand' ↦ ?_)
    split
    · exact weaker operand operand'
    · exact id
  | directive name like =>
    refine .directive name (like.imp fun operand operand' ↦ ?_)
    split
    · exact weaker operand operand'
    · exact id

/-! ## Layouts -/

/-- As many bytes so far, and the same symbols, wherever they stand. -/
structure Layout.Moved (layout layout' : Layout) : Prop where
  symbols : layout.symbols.Moved layout'.symbols
  size : layout'.size = layout.size

namespace Layout

variable {limits : Limits} {layout layout' : Layout} {location location' : Location}
  {argument argument' : Operand} {arguments arguments' : List Operand}

theorem alike_attempt {α β : Type} {like : α → β → Prop} {step : Except Diagnostic α}
    {step' : Except Diagnostic β} (alike : Alike like step step') :
    Alike like (layout.attempt step) (layout'.attempt step') := by
  cases step with
  | error diagnostic => exact .refused
  | ok answer =>
    obtain ⟨other, rfl, same⟩ := alike answer rfl
    exact .ok same

section

variable (moved : layout.Moved layout')

include moved

theorem alike_advance (size : Nat) :
    Alike Moved (layout.advance limits location size) (layout'.advance limits location' size) := by
  unfold advance
  rw [moved.size]
  exact .ite (fun _ ↦ .refused) fun _ ↦ .ok ⟨moved.symbols, rfl⟩

theorem alike_define (name : String) (value : Int) (binding : SymbolTable.Binding) :
    Alike Moved (layout.define limits name value location binding)
      (layout'.define limits name value location' binding) :=
  (moved.symbols.alike_define limits.symbols name value binding).bind fun _ _ symbols ↦
    .ok ⟨symbols, moved.size⟩

theorem alike_declare (same : argument.Moved argument') :
    Alike Moved (layout.declare limits argument) (layout'.declare limits argument') := by
  obtain ⟨kind⟩ := same
  cases kind with
  | symbol name =>
    exact (moved.symbols.alike_declare limits.symbols name).bind fun _ _ symbols ↦
      .ok ⟨symbols, moved.size⟩
  | _ => exact .refused

theorem alike_bind (same : List.Forall₂ Operand.Moved arguments arguments')
    (directive : Directive) :
    Alike Moved (layout.bind limits directive location arguments)
      (layout'.bind limits directive location' arguments') := by
  rcases same with _ | ⟨⟨bound⟩, _ | ⟨⟨kind⟩, _ | _⟩⟩
  case cons.cons.nil =>
    cases bound with
    | symbol name =>
      cases kind with
      | immediate value => exact alike_define moved name value _
      | symbol other =>
        refine (moved.symbols.alike_resolve other).bind ?_
        rintro value _ rfl
        exact alike_define moved name value _
      | _ => exact .refused
    | _ => exact .refused
  case cons.cons.cons => cases bound <;> exact .refused
  case cons.nil => cases bound <;> exact .refused
  case nil => exact .refused

theorem alike_align (means : List.Forall₂ (Operand.Means layout.symbols) arguments arguments')
    (directive : Directive) :
    Alike Moved (layout.align limits directive location arguments)
      (layout'.align limits directive location' arguments') := by
  unfold align
  rw [moved.size]
  refine (Padding.alike_ofAlignment moved.symbols means directive layout.size).bind ?_
  rintro padding _ rfl
  exact .ite (fun _ ↦ .ok moved) fun _ ↦ alike_advance moved padding.count

theorem alike_reserve (means : List.Forall₂ (Operand.Means layout.symbols) arguments arguments') :
    Alike Moved (layout.reserve limits location arguments)
      (layout'.reserve limits location' arguments') := by
  refine (Padding.alike_ofSpace moved.symbols means).bind ?_
  rintro padding _ rfl
  exact alike_advance moved padding.count

theorem alike_placeString (same : argument.Moved argument') (directive : Directive) :
    Alike Moved (layout.placeString limits directive argument)
      (layout'.placeString limits directive argument') := by
  refine (Data.alike_ofString same directive).bind ?_
  rintro data _ rfl
  exact alike_advance moved data.length

/-- Arguments go on alike if each of them does. -/
theorem alike_each {absent : DirectiveError} {like : Operand → Operand → Prop}
    {step : Layout → Operand → Except Diagnostic Layout}
    (same : List.Forall₂ like arguments arguments')
    (alike : ∀ layout layout' argument argument', layout.Moved layout' → like argument argument' →
      Alike Moved (step layout argument) (step layout' argument')) :
    Alike Moved (layout.each location absent arguments step)
      (layout'.each location' absent arguments' step) := by
  have isEmpty : arguments'.isEmpty = arguments.isEmpty := by cases same <;> rfl
  unfold each
  rw [isEmpty]
  exact .ite (fun _ ↦ .refused) fun _ ↦ .foldlM same moved fun _ _ _ _ moved like ↦
    alike_attempt (alike _ _ _ _ moved like)

omit moved in
theorem alike_checkSection (same : List.Forall₂ Operand.Moved arguments arguments') :
    Alike Eq (checkSection location arguments) (checkSection location' arguments') := by
  obtain _ | ⟨⟨kind⟩, _⟩ := same
  · exact .refused
  · cases kind with
    | symbol name => exact .ok rfl
    | _ => exact .refused

/-- Statements are laid out alike if their values mean the same. -/
theorem alike_statement {statement statement' : Statement}
    (like : statement.Like (Operand.Means layout.symbols) statement') :
    Alike Moved (layout.statement limits statement) (layout'.statement limits statement') := by
  cases like with
  | label name =>
    refine alike_attempt ?_
    dsimp only
    rw [moved.size]
    exact alike_define moved name layout.size .label
  | instruction mnemonic spelling like => exact alike_attempt (alike_advance moved 4)
  | directive name like =>
    cases name with
    | text | data | bss | external => exact .ok moved
    | namedSection =>
      exact (alike_attempt (alike_checkSection like)).bind fun _ _ _ ↦ .ok moved
    | global | globl => exact alike_each moved like fun _ _ _ _ ↦ alike_declare
    | equ | set => exact alike_attempt (alike_bind moved like _)
    | align | balign | p2align => exact alike_attempt (alike_align moved like _)
    | byte | hword | word | quad =>
      exact alike_each moved like fun _ _ _ _ moved _ ↦ alike_advance moved _
    | ascii | asciz | string =>
      exact alike_each moved like fun _ _ _ _ moved same ↦ alike_placeString moved same _
    | space | skip => exact alike_attempt (alike_reserve moved like)

end

end Layout

/-! ## Emissions -/

/-- The same code so far. -/
def Emission.SameCode (emission emission' : Emission) : Prop := emission'.code = emission.code

namespace Emission

variable {limits : Limits} {symbols symbols' : SymbolTable} {emission emission' : Emission}
  {location location' : Location} {arguments arguments' : List Operand}

section

variable (same : emission.SameCode emission')

include same

theorem SameCode.address : emission'.address = emission.address := by
  rw [Emission.address, Emission.address, show emission'.code = emission.code from same]

theorem SameCode.fits (size : Nat) : emission'.fits limits size = emission.fits limits size := by
  rw [Emission.fits, Emission.fits, same.address]

theorem SameCode.append (data : List UInt8) :
    (emission.append location data).SameCode (emission'.append location' data) := by
  change emission'.code ++ data = emission.code ++ data
  rw [show emission'.code = emission.code from same]

theorem alike_emit (data : List UInt8) :
    Alike SameCode (emission.emit limits location data) (emission'.emit limits location' data) := by
  unfold emit
  rw [same.fits]
  exact .ite (fun _ ↦ .ok (same.append data)) fun _ ↦ .refused

theorem alike_emitPadding (padding : Padding) :
    Alike SameCode (emission.emitPadding limits location padding)
      (emission'.emitPadding limits location' padding) := by
  unfold emitPadding
  rw [same.fits]
  exact .ite (fun _ ↦ .ok (same.append padding.bytes)) fun _ ↦ .refused

theorem alike_each {absent : DirectiveError} {like : Operand → Operand → Prop}
    {data data' : Operand → Except Diagnostic (List UInt8)}
    (likes : List.Forall₂ like arguments arguments')
    (alike : ∀ argument argument', like argument argument' →
      Alike Eq (data argument) (data' argument')) :
    Alike SameCode (emission.each limits location absent arguments data)
      (emission'.each limits location' absent arguments' data') := by
  have isEmpty : arguments'.isEmpty = arguments.isEmpty := by cases likes <;> rfl
  unfold each
  rw [isEmpty]
  refine .ite (fun _ ↦ .refused) fun _ ↦ .foldlM likes same ?_
  intro _ _ argument argument' same like
  refine (alike argument argument' like).bind ?_
  rintro bytes _ rfl
  exact alike_emit same bytes

variable (moved : symbols.Moved symbols')

include moved

/-- Statements are emitted alike if their values mean the same. -/
theorem alike_statement {statement statement' : Statement}
    (like : statement.Like (Operand.Means symbols) statement') :
    Alike SameCode (emission.statement limits symbols statement)
      (emission'.statement limits symbols' statement') := by
  cases like with
  | label name => exact .ok same
  | instruction mnemonic spelling like =>
    have site {location location' : Location} :
        Site.Moved ⟨symbols, emission.address, location, spelling⟩
          ⟨symbols', emission'.address, location', spelling⟩ := ⟨moved, same.address⟩
    refine (mnemonic.alike_select site like).bind ?_
    rintro instruction _ rfl
    exact alike_emit same _
  | directive name like =>
    cases name with
    | text | data | bss | external | global | globl | equ | set => exact .ok same
    | namedSection => exact (Layout.alike_checkSection like).bind fun _ _ _ ↦ .ok same
    | align | balign | p2align =>
      dsimp only [statement, directive]
      rw [same.address]
      refine (Padding.alike_ofAlignment moved like _ _).bind ?_
      rintro padding _ rfl
      exact .ite (fun _ ↦ .ok same) fun _ ↦ alike_emitPadding same padding
    | byte | hword | word | quad =>
      exact alike_each same like fun _ _ means ↦ Data.alike_ofValue moved means _
    | ascii | asciz | string =>
      exact alike_each same like fun _ _ moved ↦ Data.alike_ofString moved _
    | space | skip =>
      refine (Padding.alike_ofSpace moved like).bind ?_
      rintro padding _ rfl
      exact alike_emitPadding same padding

end

end Emission

/-! ## Programs -/

/-- The operand wherever it stands, or a number in the place of a name. -/
inductive Operand.Literal (name : String) (value : Int) : Operand → Operand → Prop
  | moved {operand operand' : Operand} (same : operand.Moved operand') :
    Literal name value operand operand'
  | literal {slot slot' : Nat} {location location' : Location} :
    Literal name value ⟨slot, location, .symbol name⟩ ⟨slot', location', .immediate value⟩

/--
Two programs, the second of which has the number of a constant in the place of some uses of its name
as a value. These uses stand behind the `equ` that binds the name, and nothing else binds it.
-/
inductive Literals (name : String) (value : Int) : List Statement → List Statement → Prop
  | mk {before before' after after' : List Statement} {equ equ' : Statement}
    (binds : ∃ slot location slot' location', equ.kind = .directive .equ
      [⟨slot, location, .symbol name⟩, ⟨slot', location', .immediate value⟩])
    (once : ∀ statement ∈ before ++ after, statement.bound? ≠ some name)
    (front : List.Forall₂ (Statement.Like Operand.Moved) before before')
    (same : equ.Like Operand.Moved equ')
    (back : List.Forall₂ (Statement.Like (Operand.Literal name value)) after after') :
    Literals name value (before ++ equ :: after) (before' ++ equ' :: after')

theorem Operand.Literal.means {symbols : SymbolTable} {name : String} {value : Int}
    {operand operand' : Operand} (bound : symbols.constant? name = some value)
    (literal : operand.Literal name value operand') : operand.Means symbols operand' := by
  cases literal with
  | moved same => exact .moved same
  | literal => exact .value bound

/-! ## The two walks -/

section

variable {limits : Limits} {name : String} {value : Int} {layout layout' : Layout}
  {values : Operand → Operand → Prop} {statements statements' : List Statement}

/-- Walks go on alike as long as what gives the values the same meaning holds of the symbols. -/
theorem Layout.alike_walk (holds : SymbolTable → Prop)
    (means : ∀ symbols, holds symbols → ∀ operand operand', values operand operand' →
      operand.Means symbols operand')
    (like : List.Forall₂ (Statement.Like values) statements statements')
    (kept : ∀ statement ∈ statements, ∀ layout layout' : Layout,
      layout.statement limits statement = .ok layout' → holds layout.symbols →
        holds layout'.symbols)
    (moved : layout.Moved layout') (held : holds layout.symbols) :
    Alike (fun layout layout' ↦ layout.Moved layout' ∧ holds layout.symbols)
      (statements.foldlM (Layout.statement limits) layout)
      (statements'.foldlM (Layout.statement limits) layout') := by
  induction like generalizing layout layout' with
  | nil => exact .ok ⟨moved, held⟩
  | @cons statement statement' rest rest' first _ ih =>
    intro final done
    rw [List.foldlM_cons] at done ⊢
    obtain ⟨next, here, done⟩ := Selection.bind_eq_ok.mp done
    obtain ⟨next', there, moved⟩ :=
      Layout.alike_statement moved (first.mono (means layout.symbols held)) next here
    rw [there]
    exact ih (fun other member ↦ kept other (List.mem_cons_of_mem _ member)) moved
      (kept statement List.mem_cons_self layout next here held) final done

/-- An `equ` binds its name to its number. -/
theorem Layout.bound?_equ {statement : Statement}
    (binds : ∃ slot location slot' location', statement.kind = .directive .equ
      [⟨slot, location, .symbol name⟩, ⟨slot', location', .immediate value⟩])
    (laid : layout.statement limits statement = .ok layout') :
    layout'.symbols.bound? name = some (value, true) := by
  obtain ⟨slot, location, kind⟩ := statement
  obtain ⟨_, _, _, _, rfl⟩ := binds
  have defined := (Layout.define_ok (Layout.attempt_eq_ok.mp laid)).2
  rw [(SymbolTable.define_ok defined).2 name, if_pos rfl]
  rfl

theorem SymbolTable.constant?_of_bound? {table : SymbolTable}
    (bound : table.bound? name = some (value, true)) : table.constant? name = some value := by
  rw [constant?_eq_bound?, bound]
  rfl

/-- The first walk over the second program is alike, and binds the name to the number. -/
theorem Literals.alike_layout (literals : Literals name value statements statements') :
    Alike (fun layout layout' ↦ layout.Moved layout' ∧ layout.symbols.constant? name = some value)
      (Layout.ofStatements limits statements) (Layout.ofStatements limits statements') := by
  obtain @⟨before, before', after, after', equ, equ', binds, once, front, same, back⟩ := literals
  have start : Layout.empty.Moved .empty := ⟨.nil, rfl⟩
  have begun : Alike _ (before.foldlM (Layout.statement limits) .empty) _ :=
    Layout.alike_walk (fun _ ↦ True) (fun _ _ _ _ ↦ .moved) front (fun _ _ _ _ _ _ ↦ trivial) start
      trivial
  rw [Layout.ofStatements, Layout.ofStatements, List.foldlM_append, List.foldlM_append]
  refine begun.bind ?_
  rintro layout layout' ⟨moved, -⟩
  rw [List.foldlM_cons, List.foldlM_cons]
  intro final laid
  obtain ⟨next, here, laid⟩ := Selection.bind_eq_ok.mp laid
  obtain ⟨next', there, moved⟩ :=
    Layout.alike_statement moved (same.mono fun _ _ ↦ .moved) next here
  rw [there]
  -- From here on the name is bound, because no other statement binds it anew.
  have kept : ∀ statement ∈ after, ∀ layout layout' : Layout,
      layout.statement limits statement = .ok layout' →
        layout.symbols.bound? name = some (value, true) →
          layout'.symbols.bound? name = some (value, true) := by
    intro statement member layout layout' laid bound
    have other := once statement (List.mem_append_right _ member)
    rw [(Layout.binds_statement laid).others name other, bound]
  have ended := Layout.alike_walk (fun symbols ↦ symbols.bound? name = some (value, true))
    (fun _ bound _ _ literal ↦ literal.means (SymbolTable.constant?_of_bound? bound)) back kept
    moved (Layout.bound?_equ binds here)
  obtain ⟨final', done, moved, bound⟩ := ended final laid
  exact ⟨final', done, moved, SymbolTable.constant?_of_bound? bound⟩

/-- All operands mean the same under symbols that bind the name to the number. -/
theorem Literals.like {symbols : SymbolTable} (bound : symbols.constant? name = some value)
    (literals : Literals name value statements statements') :
    List.Forall₂ (Statement.Like (Operand.Means symbols)) statements statements' := by
  obtain ⟨-, -, front, same, back⟩ := literals
  have still (statement statement' : Statement) (like : statement.Like Operand.Moved statement') :
      statement.Like (Operand.Means symbols) statement' := like.mono fun _ _ ↦ .moved
  have means (statement statement' : Statement)
      (like : statement.Like (Operand.Literal name value) statement') :
      statement.Like (Operand.Means symbols) statement' :=
    like.mono fun _ _ literal ↦ literal.means bound
  exact List.rel_append (front.imp still) (.cons (still _ _ same) (back.imp means))

/-- The second walk over the second program is alike. -/
theorem Literals.alike_emission {symbols symbols' : SymbolTable} (moved : symbols.Moved symbols')
    (bound : symbols.constant? name = some value)
    (literals : Literals name value statements statements') :
    Alike Emission.SameCode (Emission.ofStatements limits symbols statements)
      (Emission.ofStatements limits symbols' statements') :=
  .foldlM (literals.like bound) rfl fun _ _ _ _ same like ↦ Emission.alike_statement same moved like

/-- A program that is accepted and the one with numbers in it have the same code and symbols. -/
theorem Literals.result {program program' : Program}
    (literals : Literals name value program.statements program'.statements)
    (accepted : (program.result limits).1 = .ok ()) :
    (program'.result limits).1 = .ok () ∧
      (program'.result limits).2.2.code = (program.result limits).2.2.code ∧
      (program.result limits).2.1.Moved (program'.result limits).2.1 := by
  unfold Program.result at accepted ⊢
  cases laid : Layout.ofStatements limits program.statements with
  | error failure =>
    rw [laid] at accepted
    cases accepted
  | ok layout =>
    rw [laid] at accepted
    dsimp only at accepted ⊢
    obtain ⟨layout', laid', moved, bound⟩ := literals.alike_layout layout laid
    rw [laid']
    dsimp only
    cases emits : Emission.ofStatements limits layout.symbols program.statements with
    | error diagnostic =>
      rw [emits] at accepted
      cases accepted
    | ok emission =>
      obtain ⟨emission', emits', same⟩ := literals.alike_emission moved.symbols bound emission emits
      rw [emits']
      exact ⟨rfl, same, moved.symbols⟩

end

/-- The names that are bound, with their values. -/
def SymbolTable.values (table : SymbolTable) : List (String × Int) :=
  table.defined.map fun symbol ↦ (symbol.name, symbol.value)

theorem SymbolTable.Moved.values_eq {table table' : SymbolTable} (moved : table.Moved table') :
    table'.values = table.values := by
  obtain ⟨entries⟩ := table
  obtain ⟨entries'⟩ := table'
  unfold values defined
  induction (show List.Forall₂ Symbol.Moved entries entries' from moved) with
  | nil => rfl
  | @cons entry _ rest rest' first others ih =>
    obtain ⟨location⟩ := first
    have tail := ih others
    dsimp only at tail ⊢
    rw [List.filter_cons, List.filter_cons]
    split
    · rw [List.map_cons, List.map_cons, tail]
    · exact tail

namespace Generator

variable {generator : Generator} {name : String} {value : Int} {program program' : Program}

/-- Generators that are done with two such programs have the same code and symbol values. -/
theorem same_of_views {first second : Generator} {log log' : List LogRecord}
    (literals : Literals name value program.statements program'.statements)
    (accepted : (program.result generator.limits).1 = .ok ())
    (shown : first.view = generator.view.finish program log)
    (shown' : second.view = generator.view.finish program' log') :
    second.code = first.code ∧ second.symbols.values = first.symbols.values := by
  obtain ⟨-, code, moved⟩ := literals.result accepted
  have codes : first.code = (program.result generator.limits).2.2.code :=
    congrArg (·.emission.code) shown
  have codes' : second.code = (program'.result generator.limits).2.2.code :=
    congrArg (·.emission.code) shown'
  have symbols : first.symbols = (program.result generator.limits).2.1 :=
    congrArg Assembler.symbols shown
  have symbols' : second.symbols = (program'.result generator.limits).2.1 :=
    congrArg Assembler.symbols shown'
  rw [codes, codes', symbols, symbols']
  exact ⟨code, moved.values_eq⟩

/--
A constant means its number. A program in which the number stands in the place of some uses of the
name as a value has the same code and the same symbol values, if the program with the names is
accepted; and so it is with sources that are read as two such programs.
-/
theorem same_code_of_literals
    (literals : Literals name value program.statements program'.statements) :
    (let first := generator.after (generate program)
      let second := generator.after (generate program')
      first.1 = .ok () → second.1 = .ok () ∧ second.2.code = first.2.code ∧
        second.2.symbols.values = first.2.symbols.values) ∧
    ∀ source source' file file' code,
      Program.parse source file generator.limits.nodes = .ok program →
      Program.parse source' file' generator.limits.nodes = .ok program' →
      let first := generator.after (assemble source file)
      let second := generator.after (assemble source' file')
      first.1 = .ok code → second.1 = .ok code ∧
        second.2.symbols.values = first.2.symbols.values := by
  constructor
  · intro first second accepted
    obtain ⟨log, generated⟩ := generator.view.generate_eq program
    obtain ⟨log', generated'⟩ := generator.view.generate_eq program'
    rw [← view_generate] at generated generated'
    obtain ⟨answer, shown⟩ := Prod.mk.inj generated
    obtain ⟨answer', shown'⟩ := Prod.mk.inj generated'
    have done := answer.symm.trans accepted
    exact ⟨answer'.trans (literals.result done).1, same_of_views literals done shown shown'⟩
  · intro source source' file file' code read read' first second assembled
    obtain ⟨answer, log, shown⟩ := after_read read
    obtain ⟨answer', log', shown'⟩ := after_read read'
    have done : (program.result generator.limits).1 = .ok () := by
      rw [assembled] at answer
      cases result : (program.result generator.limits).1 with
      | error diagnostic =>
        rw [result] at answer
        cases answer
      | ok => rfl
    obtain ⟨done', same, -⟩ := literals.result done
    obtain ⟨-, symbols⟩ := same_of_views literals done shown shown'
    rw [done] at answer
    rw [done', same] at answer'
    exact ⟨answer'.trans (answer.symm.trans assembled), symbols⟩

/-- A negative constant as the operand of an instruction and as a byte, and the number itself. -/
theorem same_code_of_literals_negative :
    let source := ".equ n, -3\nmov x0, n\n.byte n"
    let source' := ".equ n, -3\nmov x0, #-3\n.byte -3"
    let answer (source : String) := ((new {}).after (assemble source "<input>")).1
    answer source = .ok [0x40, 0x00, 0x80, 0x92, 0xfd] ∧
      answer source' = .ok [0x40, 0x00, 0x80, 0x92, 0xfd] := by
  intro source source' answer
  let place (line column : Int) : Location := ⟨"<input>", line, column⟩
  let equ : Statement :=
    ⟨3, place 1 1, .directive .equ [⟨1, place 1 6, .symbol "n"⟩, ⟨2, place 1 9, .immediate (-3)⟩]⟩
  let uses (use : OperandKind) : List Statement :=
    [⟨6, place 2 1, .instruction .move "mov"
        [⟨4, place 2 5, .register (.general 0 .w64)⟩, ⟨5, place 2 9, use⟩]⟩,
      ⟨8, place 3 1, .directive .byte [⟨7, place 3 7, use⟩]⟩]
  have names : (Program.parse source "<input>" 4096).toOption.map (·.statements) =
      some (equ :: uses (.symbol "n")) := by decide +kernel
  have numbers : (Program.parse source' "<input>" 4096).toOption.map (·.statements) =
      some (equ :: uses (.immediate (-3))) := by decide +kernel
  have bytes : (answer source).toOption.map id = some [0x40, 0x00, 0x80, 0x92, 0xfd] := by
    decide +kernel
  obtain ⟨program, read, names⟩ := exists_ok_of_toOption names
  obtain ⟨program', read', numbers⟩ := exists_ok_of_toOption numbers
  obtain ⟨code, done, rfl⟩ := exists_ok_of_toOption bytes
  have literals : Literals "n" (-3) program.statements program'.statements := by
    rw [names, numbers]
    have equal : equ.Like Operand.Moved equ := .directive .equ (.cons ⟨_⟩ (.cons ⟨_⟩ .nil))
    refine .mk ⟨_, _, _, _, rfl⟩ (by decide) .nil equal ?_
    exact .cons (.instruction .move "mov" (.cons (.moved ⟨_⟩) (.cons .literal .nil)))
      (.cons (.directive .byte (.cons .literal .nil)) .nil)
  exact ⟨done, ((same_code_of_literals literals).2 _ _ _ _ _ read read' done).1⟩

end Generator

end MiniA64
