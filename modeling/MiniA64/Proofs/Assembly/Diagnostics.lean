import MiniA64.Proofs.Assembly.Metering
import MiniA64.Proofs.Assembly.Places
import MiniA64.Proofs.Assembly.Refusals
import MiniA64.Proofs.Assembly.Sessions

/-!
# Where sources are refused

A source that is refused is refused at a token, a statement or an operand, and all of these stand
in its lines. So every diagnostic of an assembly has a place in the source and shows the line that
it is about.
-/

namespace MiniA64

/-! ## Paddings and values -/

namespace Padding

variable {placed : Location → Prop} {symbols : SymbolTable} {location : Location}
  {arguments : List Operand}

theorem answered_refuse {α : Type} {good : α → Prop} (here : placed location)
    (error : DirectiveError) : AnsweredAt placed good (refuse location error) :=
  AnsweredAt.locatedAt here _

theorem answered_constant {argument : Operand} (here : placed argument.location)
    (what : String) : AnsweredAt placed (fun _ ↦ True) (constant symbols what argument) := by
  unfold constant
  dsimp only
  split
  · trivial
  · exact answered_refuse here _

theorem answered_fillOf {fill : Option Operand} (here : ∀ operand ∈ fill, placed operand.location) :
    AnsweredAt placed (fun _ ↦ True) (fillOf symbols fill) := by
  cases fill with
  | none => trivial
  | some argument => exact (answered_constant (here argument rfl) _).bind fun _ _ ↦ trivial

theorem arguments?_stand (places : ∀ operand ∈ arguments, placed operand.location)
    {size : Operand} {fill : Option Operand} (h : arguments? arguments = some (size, fill)) :
    placed size.location ∧ ∀ operand ∈ fill, placed operand.location := by
  unfold arguments? at h
  split at h
  · cases h
    exact ⟨places _ (by simp), nofun⟩
  · cases h
    exact ⟨places _ (by simp), by simpa using places _ (by simp)⟩
  · cases h

theorem answered_boundary (here : placed location) (directive : Directive) (amount : Int) :
    AnsweredAt placed (fun _ ↦ True) (boundary directive location amount) := by
  unfold boundary
  split <;> split
  · trivial
  · exact answered_refuse here _
  · trivial
  · exact answered_refuse here _

section

variable (here : placed location) (places : ∀ operand ∈ arguments, placed operand.location)

include here places

theorem answered_ofAlignment (directive : Directive) (address : Nat) :
    AnsweredAt placed (fun _ ↦ True)
      (ofAlignment symbols directive location arguments address) := by
  unfold ofAlignment
  split
  · exact answered_refuse here _
  · rename_i size fill split
    obtain ⟨hsize, hfill⟩ := arguments?_stand places split
    exact (answered_constant hsize _).bind fun _ _ ↦ (answered_boundary here _ _).bind fun _ _ ↦
      (answered_fillOf hfill).bind fun _ _ ↦ trivial

theorem answered_ofSpace :
    AnsweredAt placed (fun _ ↦ True) (ofSpace symbols location arguments) := by
  unfold ofSpace
  split
  · exact answered_refuse here _
  · rename_i size fill split
    obtain ⟨hsize, hfill⟩ := arguments?_stand places split
    refine (answered_constant hsize _).bind fun count _ ↦ ?_
    split
    · exact answered_refuse here _
    · exact (answered_fillOf hfill).bind fun _ _ ↦ trivial

end

end Padding

namespace Data

variable {placed : Location → Prop} {argument : Operand}

theorem answered_ofValue (here : placed argument.location) (symbols : SymbolTable) (width : Nat) :
    AnsweredAt placed (fun _ ↦ True) (ofValue symbols width argument) := by
  have checked (value : Int) : AnsweredAt placed (fun _ ↦ True)
      (if value < -2 ^ (8 * width - 1) ∨ 2 ^ (8 * width) ≤ value then
        Selection.outOfRange argument.location value (.data width)
      else .ok (toLittleEndian width (value % 256 ^ width).toNat) :
        Except Diagnostic (List UInt8)) := by
    split
    · exact Selection.answered_outOfRange here trivial _
    · trivial
  unfold ofValue
  split
  · exact checked _
  · exact (symbols.answered_resolve here _).bind fun value _ ↦ checked value
  · exact Selection.answered_refuse here _

theorem answered_ofString (here : placed argument.location) (directive : Directive) :
    AnsweredAt placed (fun _ ↦ True) (ofString directive argument) := by
  unfold ofString
  split
  · trivial
  · exact Padding.answered_refuse here _

end Data

/-! ## Statements -/

/-- The failure of a walk stands at a place. -/
def LayoutFailure.Placed (placed : Location → Prop) (failure : LayoutFailure) : Prop :=
  failure.diagnostic.Placed placed

/-- A statement and its operands stand at places. -/
structure Statement.Placed (placed : Location → Prop) (statement : Statement) : Prop where
  here : placed statement.location
  operands : ∀ operand ∈ statement.kind.operands, placed operand.location

namespace Layout

variable {placed : Location → Prop} {limits : Limits} {layout : Layout} {location : Location}
  {arguments : List Operand}

theorem answered_attempt {α : Type} {step : Except Diagnostic α}
    (h : AnsweredAt placed (fun _ ↦ True) step) :
    Answered (LayoutFailure.Placed placed) (fun _ ↦ True) (layout.attempt step) := by
  cases step with
  | ok reached => trivial
  | error diagnostic => exact Footing.Refuses.placed h

theorem answered_advance (here : placed location) (size : Nat) :
    AnsweredAt placed (fun _ ↦ True) (layout.advance limits location size) := by
  unfold advance
  split
  · exact AnsweredAt.locatedAt here _
  · trivial

theorem answered_define (here : placed location) (name : String) (value : Int)
    (binding : SymbolTable.Binding) :
    AnsweredAt placed (fun _ ↦ True) (layout.define limits name value location binding) :=
  (layout.symbols.answered_define here _ _ _ _).bind fun _ _ ↦ trivial

theorem answered_declare {argument : Operand} (here : placed argument.location) :
    AnsweredAt placed (fun _ ↦ True) (layout.declare limits argument) := by
  unfold declare
  split
  · exact (layout.symbols.answered_declare here _ _).bind fun _ _ ↦ trivial
  · exact Padding.answered_refuse here _

theorem answered_each {absent : DirectiveError}
    {step : Layout → Operand → Except Diagnostic Layout} (here : placed location)
    (steps : ∀ argument ∈ arguments, ∀ layout,
      AnsweredAt placed (fun _ ↦ True) (step layout argument)) :
    Answered (LayoutFailure.Placed placed) (fun _ ↦ True)
      (layout.each location absent arguments step) := by
  unfold each
  split
  · exact answered_attempt (Padding.answered_refuse here _)
  · refine .foldlM layout fun argument member layout ↦ ?_
    exact answered_attempt (steps argument member layout)

section

variable (here : placed location) (places : ∀ operand ∈ arguments, placed operand.location)

include here places

theorem answered_bind (directive : Directive) :
    AnsweredAt placed (fun _ ↦ True) (layout.bind limits directive location arguments) := by
  unfold Layout.bind
  generalize (if directive = .set then SymbolTable.Binding.variable else .constant) = binding
  split
  · rename_i name argument
    have there : placed argument.location := places _ (by simp)
    split
    · exact answered_define here _ _ _
    · exact (layout.symbols.answered_resolve there _).bind fun _ _ ↦ answered_define here _ _ _
    · exact Selection.answered_refuse there _
  · exact Padding.answered_refuse here _

theorem answered_align (directive : Directive) :
    AnsweredAt placed (fun _ ↦ True) (layout.align limits directive location arguments) := by
  refine (Padding.answered_ofAlignment here places _ _).bind fun padding _ ↦ ?_
  split
  · trivial
  · exact answered_advance here _

theorem answered_reserve :
    AnsweredAt placed (fun _ ↦ True) (layout.reserve limits location arguments) :=
  (Padding.answered_ofSpace here places).bind fun _ _ ↦ answered_advance here _

omit places in
theorem answered_checkSection :
    AnsweredAt placed (fun _ ↦ True) (checkSection location arguments) := by
  unfold checkSection
  split
  · trivial
  · exact Padding.answered_refuse here _

theorem answered_placeValues (width : Nat) :
    Answered (LayoutFailure.Placed placed) (fun _ ↦ True)
      (layout.placeValues limits location width arguments) :=
  answered_each here fun argument member _ ↦ answered_advance (places argument member) _

theorem answered_directive (name : Directive) :
    Answered (LayoutFailure.Placed placed) (fun _ ↦ True)
      (layout.directive limits name location arguments) := by
  cases name with
  | text | data | bss | external => trivial
  | namedSection => exact (answered_attempt (answered_checkSection here)).bind fun _ _ ↦ trivial
  | global | globl =>
    exact answered_each here fun argument member _ ↦ answered_declare (places argument member)
  | equ | set => exact answered_attempt (answered_bind here places _)
  | align | balign | p2align => exact answered_attempt (answered_align here places _)
  | byte | hword | word | quad => exact answered_placeValues here places _
  | ascii | asciz | string =>
    refine answered_each here fun argument member layout ↦ ?_
    exact (Data.answered_ofString (places argument member) _).bind fun _ _ ↦
      answered_advance (places argument member) _
  | space | skip => exact answered_attempt (answered_reserve here places)

end

theorem answered_statement {statement : Statement} (stands : statement.Placed placed) :
    Answered (LayoutFailure.Placed placed) (fun _ ↦ True) (layout.statement limits statement) := by
  obtain ⟨slot, location, kind⟩ := statement
  cases kind with
  | label name => exact answered_attempt (answered_define stands.here _ _ _)
  | instruction => exact answered_attempt (answered_advance stands.here _)
  | directive name arguments => exact answered_directive stands.here stands.operands name

theorem answered_ofStatements {statements : List Statement}
    (stand : ∀ statement ∈ statements, statement.Placed placed) :
    Answered (LayoutFailure.Placed placed) (fun _ ↦ True) (ofStatements limits statements) :=
  .foldlM _ fun statement member _ ↦ answered_statement (stand statement member)

end Layout

namespace Emission

variable {placed : Location → Prop} {limits : Limits} {symbols : SymbolTable}
  {emission : Emission} {location : Location} {arguments : List Operand}

theorem answered_emit (here : placed location) (data : List UInt8) :
    AnsweredAt placed (fun _ ↦ True) (emission.emit limits location data) := by
  unfold emit
  split
  · trivial
  · exact AnsweredAt.locatedAt here _

theorem answered_emitPadding (here : placed location) (padding : Padding) :
    AnsweredAt placed (fun _ ↦ True) (emission.emitPadding limits location padding) := by
  unfold emitPadding
  split
  · trivial
  · exact AnsweredAt.locatedAt here _

theorem answered_each {absent : DirectiveError}
    {data : Operand → Except Diagnostic (List UInt8)} (here : placed location)
    (places : ∀ operand ∈ arguments, placed operand.location)
    (answers : ∀ {argument : Operand}, placed argument.location →
      AnsweredAt placed (fun _ ↦ True) (data argument)) :
    AnsweredAt placed (fun _ ↦ True) (emission.each limits location absent arguments data) := by
  unfold each
  split
  · exact Padding.answered_refuse here _
  · exact .foldlM emission fun argument member _ ↦
      (answers (places argument member)).bind fun _ _ ↦ answered_emit (places argument member) _

section

variable (here : placed location) (places : ∀ operand ∈ arguments, placed operand.location)

include here places

theorem answered_emitValues (width : Nat) :
    AnsweredAt placed (fun _ ↦ True)
      (emission.emitValues limits symbols location width arguments) :=
  answered_each here places fun there ↦ Data.answered_ofValue there symbols width

theorem answered_directive (name : Directive) :
    AnsweredAt placed (fun _ ↦ True)
      (emission.directive limits symbols location name arguments) := by
  cases name with
  | text | data | bss | external | global | globl | equ | set => trivial
  | namedSection => exact (Layout.answered_checkSection here).bind fun _ _ ↦ trivial
  | align | balign | p2align =>
    refine (Padding.answered_ofAlignment here places _ _).bind fun padding _ ↦ ?_
    split
    · trivial
    · exact answered_emitPadding here _
  | byte | hword | word | quad => exact answered_emitValues here places _
  | ascii | asciz | string =>
    exact answered_each here places fun there ↦ Data.answered_ofString there _
  | space | skip =>
    exact (Padding.answered_ofSpace here places).bind fun _ _ ↦ answered_emitPadding here _

end

theorem answered_statement {statement : Statement} (stands : statement.Placed placed) :
    AnsweredAt placed (fun _ ↦ True) (emission.statement limits symbols statement) := by
  obtain ⟨slot, location, kind⟩ := statement
  cases kind with
  | label name => trivial
  | instruction mnemonic spelling operands =>
    have here : placed (Site.mk symbols emission.address location spelling).location := stands.here
    have holds : ∀ operand ∈ operands, (Footing.within placed).Holds
        (Site.mk symbols emission.address location spelling) operand :=
      fun operand member ↦ ⟨stands.operands operand member, fun _ _ ↦ trivial⟩
    exact (mnemonic.answered_select here holds).bind fun _ _ ↦ answered_emit stands.here _
  | directive name arguments => exact answered_directive stands.here stands.operands name

theorem answered_ofStatements {statements : List Statement}
    (stand : ∀ statement ∈ statements, statement.Placed placed) :
    AnsweredAt placed (fun _ ↦ True) (ofStatements limits symbols statements) :=
  .foldlM _ fun statement member _ ↦ answered_statement (stand statement member)

end Emission

/-! ## Programs -/

theorem Statement.StandsOn.placed {ground : Ground} {statement : Statement}
    (stands : statement.StandsOn ground) : statement.Placed ground.placed :=
  ⟨stands.here, fun operand member ↦ (stands.operands operand member).here⟩

/-- A program whose statements stand at places is refused at one of them. -/
theorem Program.placed_of_result {placed : Location → Prop} {limits : Limits} {program : Program}
    {diagnostic : Diagnostic} (stand : ∀ statement ∈ program.statements, statement.Placed placed)
    (failed : (program.result limits).1 = .error diagnostic) : diagnostic.Placed placed := by
  have laid : Answered (LayoutFailure.Placed placed) (fun _ ↦ True)
      (Layout.ofStatements limits program.statements) :=
    Layout.answered_ofStatements stand
  unfold result at failed
  cases laidOut : Layout.ofStatements limits program.statements with
  | error failure =>
    rw [laidOut] at laid failed
    cases failed
    exact laid
  | ok layout =>
    have emitted : AnsweredAt placed (fun _ ↦ True)
        (Emission.ofStatements limits layout.symbols program.statements) :=
      Emission.answered_ofStatements stand
    rw [laidOut] at failed
    dsimp only at failed
    cases emits : Emission.ofStatements limits layout.symbols program.statements with
    | error other =>
      rw [emits] at emitted failed
      cases failed
      exact Footing.Refuses.placed emitted
    | ok emission =>
      rw [emits] at failed
      cases failed

/-- The places in a source, and the numbers below a count of nodes. -/
def Ground.ofSource (source file : String) (nodes : Nat) : Ground where
  placed := Location.Within source file
  made slot := slot < nodes

/-- The parts of a program stand in its source and have numbers of its nodes. -/
theorem Program.standsOn_of_parse {source file : String} {capacity : Int} {program : Program}
    (read : parse source file capacity = .ok program) :
    program.root < program.nodes ∧
      ∀ statement ∈ program.statements,
        statement.StandsOn (.ofSource source file program.nodes) := by
  have stocked (pool : NodePool) (room : pool.capacity = program.nodes) :
      Parser.Stocked (.ofSource source file program.nodes)
        ⟨(Cursor.start source 1).tokens file, pool⟩ :=
    .tokens Token.within_of_mem fun slot below ↦ Int.ofNat_lt.mp (room ▸ below)
  have built : Parser.Built (.ofSource source file program.nodes) (Grammar.program file) _ :=
    Grammar.built_program (Location.within_top source file)
  -- With no more room than its nodes need, the program is the same.
  have again := (parse_metered read program.nodes).1 (Int.le_refl _)
  have sound := built.sound (stocked ⟨program.nodes, 0⟩ rfl)
  unfold parse at again
  dsimp only at again
  split at again
  · rename_i root statements after ran
    have ran : Grammar.program file _ = .ok ((root, statements), after) := ran
    cases again
    rw [ran] at sound
    exact sound.1
  · split at again <;> cases again

/-! ## Diagnostics -/

/--
A diagnostic that has a place in a line of a source, or right after one, and that shows this line
without the carriage returns at its end.
-/
structure Diagnostic.Shows (source : String) (location : Location) (line : List Char)
    (diagnostic : Diagnostic) : Prop where
  place : diagnostic.location = some location
  held : sourceLine? source location.line = some line
  first : 1 ≤ location.column
  last : location.column ≤ line.length + 1
  shown : diagnostic.sourceLine = some (dropReturns line)

theorem Diagnostic.exists_shows_of_placed {source file : String} {diagnostic : Diagnostic}
    (stands : diagnostic.Placed (Location.Within source file)) :
    ∃ location line, location.file = file ∧
      (diagnostic.locate source).Shows source location line := by
  obtain ⟨error, location, ⟨inFile, line, held, first, last⟩, rfl⟩ := stands
  refine ⟨location, line, inFile, ?_⟩
  have located : (error.locatedAt location).locate source =
      (error.locatedAt location).withSourceLine (dropReturns line) := by
    simp only [Diagnostic.locate, AssemblyError.locatedAt, held]
  rw [located]
  exact ⟨rfl, held, first, last, rfl⟩

/-- A line that is shown is not looked up again. -/
theorem Diagnostic.Shows.locate {source : String} {location : Location} {line : List Char}
    {diagnostic : Diagnostic} (there : diagnostic.Shows source location line) :
    diagnostic.locate source = diagnostic := by
  unfold Diagnostic.locate
  rw [there.shown]

theorem Program.exists_shows_of_unreadable {source file : String} {capacity : Int}
    {diagnostic : Diagnostic} (unreadable : parse source file capacity = .error diagnostic) :
    ∃ location line, location.file = file ∧
      (diagnostic.locate source).Shows source location line := by
  have stocked : Parser.Stocked ⟨Location.Within source file, fun _ ↦ True⟩
      ⟨(Cursor.start source 1).tokens file, ⟨capacity, 0⟩⟩ :=
    .tokens Token.within_of_mem fun _ _ ↦ trivial
  have built : Parser.Built ⟨Location.Within source file, fun _ ↦ True⟩ (Grammar.program file) _ :=
    Grammar.built_program (Location.within_top source file)
  have sound := built.sound stocked
  unfold parse at unreadable
  dsimp only at unreadable
  split at unreadable
  · cases unreadable
  rename_i refused ran
  have ran : Grammar.program file _ = .error refused := ran
  rw [ran] at sound
  obtain ⟨location, line, inFile, shown⟩ := Diagnostic.exists_shows_of_placed sound
  refine ⟨location, line, inFile, ?_⟩
  split at unreadable
  · cases unreadable
    rwa [shown.locate]
  · cases unreadable
    exact shown

namespace Generator

/-- Whatever has gone before, a source that is refused is refused in one of its lines. -/
theorem exists_shows_of_error {generator : Generator} {source file : String}
    {diagnostic : Diagnostic}
    (failed : (generator.after (assemble source file)).1 = .error diagnostic) :
    ∃ location line, location.file = file ∧ diagnostic.Shows source location line := by
  cases parsed : Program.parse source file generator.limits.nodes with
  | error refused =>
    rw [(after_unreadable parsed).1] at failed
    cases failed
    exact Program.exists_shows_of_unreadable parsed
  | ok program =>
    rw [(after_read parsed).1] at failed
    split at failed
    · rename_i refused result
      cases failed
      refine Diagnostic.exists_shows_of_placed (Program.placed_of_result ?_ result)
      exact fun statement member ↦ ((Program.standsOn_of_parse parsed).2 statement member).placed
    · cases failed

end Generator

end MiniA64
