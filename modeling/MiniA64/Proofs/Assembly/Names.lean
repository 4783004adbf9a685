import MiniA64.Proofs.Assembly.Agreement
import MiniA64.Proofs.Assembly.Derivations
import MiniA64.Proofs.Assembly.Spans

/-!
# Names in a program

Names are read as tokens, and consist of the characters that a name may have. A parser makes names of
nothing but tokens, so those that the statements of a program bind or declare are names too. The
symbol table of a layout has just these, none of them twice. What is declared is global there from
then on, whether it is bound before or after that or not at all.
-/

namespace MiniA64

/-- The characters of a name; there is a dot in the name of a section and in that of a branch. -/
def IsName (name : String) : Prop := ∀ c ∈ name.toList, Lexeme.isNameChar c = true ∨ c = '.'

namespace Lexeme

theorem isName_nameOf (text : List Char) : IsName (String.ofList (nameOf text)) := by
  rw [IsName, String.toList_ofList]
  exact fun c ↦ mem_nameOf

end Lexeme

/-! ## Names that a parser makes -/

/-- A token that stands for a name if it is an identifier. -/
def Token.Named (token : Token) : Prop := ∀ name, token.kind = .identifier name → IsName name

theorem Cursor.named_tokens (file : String) (cursor : Cursor) :
    ∀ token ∈ cursor.tokens file, token.Named := by
  have next (cursor : Cursor) : (cursor.next file).1.Named := by
    intro name kind
    rw [Lexeme.name_of_scan kind]
    exact Lexeme.isName_nameOf _
  fun_induction Cursor.tokens file cursor with
  | case1 cursor step final => exact List.forall_mem_singleton.mpr (next cursor)
  | case2 cursor step going ih => exact List.forall_mem_cons.mpr ⟨next cursor, ih⟩

namespace Parser

/-- Where identifiers are names the parser makes good results, and leaves such tokens. -/
def Gives {α : Type} (parser : Parser α) (good : α → Prop) : Prop :=
  ∀ state result after, (∀ token ∈ state.tokens, token.Named) →
    parser state = .ok (result, after) → good result ∧ ∀ token ∈ after.tokens, token.Named

section

variable {α β : Type} {good : α → Prop}

theorem gives_pure {result : α} (h : good result) : Gives (pure result) good := by
  intro state _ after named step
  cases step
  exact ⟨h, named⟩

theorem Gives.bind {first : Parser α} {second : α → Parser β} {between : α → Prop}
    {good : β → Prop} (h₁ : Gives first between)
    (h₂ : ∀ item, between item → Gives (second item) good) : Gives (first >>= second) good := by
  intro state result after named step
  obtain ⟨item, left, step₁, step₂⟩ := bind_eq_ok step
  obtain ⟨hitem, named'⟩ := h₁ _ _ _ named step₁
  exact h₂ item hitem _ _ _ named' step₂

theorem gives_current : Gives current Token.Named := by
  intro state token after named step
  cases step
  refine ⟨?_, named⟩
  obtain ⟨_ | ⟨token, rest⟩, pool⟩ := state
  · exact nofun
  · exact named token List.mem_cons_self

theorem gives_advance : Gives advance fun _ ↦ True := by
  intro state _ after named step
  cases step
  refine ⟨trivial, fun token member ↦ ?_⟩
  unfold ParserState.advance at member
  split at member
  · exact named token member
  · exact named token (List.mem_of_mem_tail member)

theorem gives_many {item : Parser (Option α)} {consumes : Consumes item}
    (h : Gives item fun found ↦ ∀ one ∈ found, good one) :
    Gives (many item consumes) fun items ↦ ∀ one ∈ items, good one := by
  intro state items last named step
  fun_induction many item consumes state generalizing items last with
  | case1 | case3 => cases step
  | case2 state between found =>
    cases step
    exact ⟨List.forall_mem_nil _, (h _ _ _ named found).2⟩
  | case4 state first between found rest last tail ih =>
    cases step
    obtain ⟨one, named⟩ := h _ _ _ named found
    obtain ⟨others, named⟩ := ih _ _ named tail
    exact ⟨List.forall_mem_cons.mpr ⟨one first rfl, others⟩, named⟩

/-- What is put together of steps takes tokens and makes none. -/
theorem Built.gives {parser : Parser α}
    (built : Built ⟨fun _ ↦ True, fun _ ↦ True⟩ parser good) : Gives parser good := by
  induction built with
  | pure h => exact gives_pure h
  | bind _ _ ih₁ ih₂ => exact ih₁.bind ih₂
  | current | following =>
    intro state _ after named step
    cases step
    exact ⟨trivial, named⟩
  | advance => exact gives_advance
  | refuse =>
    intro state _ after named step
    cases step
  | allocate =>
    intro state slot after named step
    unfold Parser.allocate at step
    split at step
    · cases step
    · cases step
      exact ⟨trivial, named⟩
  | many _ ih => exact gives_many ih

theorem gives_refuse {token : Token} {error : GrammarError} :
    Gives (refuse token error) good := by
  intro state _ after named step
  cases step

theorem gives_identifier (error : GrammarError) : Gives (identifier error) IsName := by
  refine gives_current.bind fun token here ↦ ?_
  split
  · rename_i name kind
    exact gives_advance.bind fun _ _ ↦ gives_pure (here name kind)
  · exact gives_refuse

theorem gives_commaSeparated {item : Parser α} {shrinks : Shrinks item} (h : Gives item good) :
    Gives (commaSeparated item shrinks) fun items ↦ ∀ one ∈ items, good one := by
  have afterComma : Gives (afterComma item) fun found ↦ ∀ one ∈ found, good one := by
    refine gives_current.bind fun token _ ↦ ?_
    split
    · refine gives_advance.bind fun _ _ ↦ h.bind fun one hone ↦ gives_pure ?_
      rintro _ ⟨⟩
      exact hone
    · exact gives_pure nofun
  exact h.bind fun one hone ↦ (gives_many afterComma).bind fun rest hrest ↦
    gives_pure (List.forall_mem_cons.mpr ⟨hone, hrest⟩)

end

end Parser

/-- The symbol that an operand is has a name. -/
def Operand.Named (operand : Operand) : Prop := ∀ name, operand.kind = .symbol name → IsName name

/-- The names that a label and a directive mention are names. -/
def Statement.Named (statement : Statement) : Prop :=
  match statement.kind with
  | .label name => IsName name
  | .instruction _ _ _ => True
  | .directive _ arguments => ∀ argument ∈ arguments, argument.Named

namespace Grammar

open MiniA64.Parser

theorem gives_argument : Gives argument Operand.Named := by
  refine gives_current.bind fun token here ↦ ?_
  have kind : Gives (argumentKind token) fun kind ↦ ∀ name, kind = .symbol name → IsName name := by
    unfold argumentKind
    split
    · rename_i name identifier
      refine gives_advance.bind fun _ _ ↦ gives_pure ?_
      rintro _ ⟨⟩
      exact here name identifier
    · exact gives_advance.bind fun _ _ ↦ gives_pure nofun
    · refine gives_advance.bind fun _ _ ↦ (gives_identifier _).bind fun name named ↦ gives_pure ?_
      rintro _ ⟨⟩ c member
      rw [String.toList_append] at member
      obtain dot | rest := List.mem_append.mp member
      · exact .inr (List.mem_singleton.mp dot)
      · exact named c rest
    · exact gives_advance.bind fun _ _ ↦
        (Built.signedNumber _).gives.bind fun _ _ ↦ gives_pure nofun
    · exact (Built.signedNumber _).gives.bind fun _ _ ↦ gives_pure nofun
  exact kind.bind fun kind named ↦
    (Built.allocate trivial).gives.bind fun slot _ ↦ gives_pure named

theorem gives_directive (dot : Token) : Gives (directive dot) Statement.Named := by
  have arguments : Gives (operandList argument argument_shrinks) fun arguments ↦
      ∀ argument ∈ arguments, argument.Named := by
    refine gives_current.bind fun token _ ↦ ?_
    split
    · exact gives_pure nofun
    · exact gives_pure nofun
    · exact gives_commaSeparated gives_argument
  exact built_directiveName.gives.bind fun name _ ↦ arguments.bind fun arguments named ↦
    (Built.allocate trivial).gives.bind fun slot _ ↦ built_endOfStatement.gives.bind fun _ _ ↦
      gives_pure named

theorem gives_namedStatement {first : Token} {name : String} (named : IsName name)
    (next : TokenKind) : Gives (namedStatement first name next) Statement.Named := by
  unfold namedStatement
  split
  · exact gives_advance.bind fun _ _ ↦ (Built.allocate trivial).gives.bind fun slot _ ↦
      gives_pure named
  · unfold instruction
    split
    · exact gives_refuse
    · exact (built_operandList built_operand).gives.bind fun operands _ ↦
        (Built.allocate trivial).gives.bind fun slot _ ↦ built_endOfStatement.gives.bind fun _ _ ↦
          gives_pure trivial

theorem gives_statement? :
    Gives statement? fun found ↦ ∀ line ∈ found, ∀ statement ∈ line, statement.Named := by
  refine gives_current.bind fun first here ↦ Built.following.gives.bind fun next _ ↦ ?_
  split
  · exact gives_pure nofun
  · exact gives_advance.bind fun _ _ ↦ gives_pure (by simp)
  · refine gives_advance.bind fun _ _ ↦ (gives_directive first).bind fun statement named ↦
      gives_pure ?_
    simpa using named
  · rename_i name identifier
    refine gives_advance.bind fun _ _ ↦
      (gives_namedStatement (here name identifier) next).bind fun statement named ↦ gives_pure ?_
    simpa using named
  · exact gives_refuse

end Grammar

theorem Program.named_of_parse {source file : String} {capacity : Int} {program : Program}
    (h : Program.parse source file capacity = .ok program) :
    ∀ statement ∈ program.statements, statement.Named := by
  have gives : Parser.Gives (Grammar.program file) fun result ↦
      ∀ statement ∈ result.2, statement.Named := by
    refine (Parser.Built.allocate trivial).gives.bind fun root _ ↦
      (Parser.gives_many Grammar.gives_statement?).bind fun lines named ↦
        Parser.gives_pure fun statement member ↦ ?_
    obtain ⟨line, among, found⟩ := List.mem_filterMap.mp member
    exact named line among statement found
  unfold Program.parse at h
  simp only at h
  split at h
  · rename_i root statements state parsed
    cases h
    exact (gives _ _ _ (Cursor.named_tokens file _) parsed).1
  · split at h <;> cases h

/-! ## Names of a symbol table -/

namespace SymbolTable

/-- The names of a table, in the order of their first mention. -/
def names (table : SymbolTable) : List String := table.entries.map (·.name)

/-- Whether the name has been declared global. -/
def isGlobal (table : SymbolTable) (name : String) : Bool := (table.find? name).any (·.isGlobal)

/-- What a table has more than another one if some names are mentioned, and some are declared. -/
structure Grows (mentioned declared : List String) (table table' : SymbolTable) : Prop where
  distinct : table.names.Nodup → table'.names.Nodup
  names : ∀ name ∈ table'.names, name ∈ table.names ∨ name ∈ mentioned
  global : ∀ name, table'.isGlobal name = true ↔ table.isGlobal name = true ∨ name ∈ declared

variable {table table' table'' : SymbolTable} {mentioned declared : List String}

theorem Grows.refl (mentioned : List String) (table : SymbolTable) :
    Grows mentioned [] table table :=
  ⟨id, fun _ ↦ .inl, fun _ ↦ by simp⟩

theorem Grows.trans {mentioned' declared' : List String} (first : Grows mentioned declared table table')
    (second : Grows mentioned' declared' table' table'') :
    Grows (mentioned ++ mentioned') (declared ++ declared') table table'' where
  distinct := second.distinct ∘ first.distinct
  names name member := by
    rw [List.mem_append, ← or_assoc]
    exact (second.names name member).imp_left (first.names name)
  global name := by rw [second.global, first.global, List.mem_append, or_assoc]

theorem names_replace (symbol : Symbol) : (table.replace symbol).names = table.names := by
  rw [names, replace, List.map_map]
  refine List.map_congr_left fun entry _ ↦ ?_
  simp only [Function.comp_apply]
  split
  · rename_i same
    exact same.symm
  · rfl

theorem notMem_names {name : String} (absent : table.find? name = none) : name ∉ table.names := by
  intro member
  obtain ⟨entry, among, rfl⟩ := List.mem_map.mp member
  have apart := List.find?_eq_none.mp absent entry among
  simp at apart

/-- An entry that is put in the place of one of its name says whether the name is global. -/
theorem grows_replace {name : String} {old symbol : Symbol} (found : table.find? name = some old)
    (same : symbol.name = name) (only : ∀ other ∈ declared, other = name)
    (global : symbol.isGlobal = true ↔ old.isGlobal = true ∨ name ∈ declared) :
    Grows [name] declared table (table.replace symbol) where
  distinct := by rw [names_replace]; exact id
  names other member := by rw [names_replace] at member; exact .inl member
  global other := by
    rw [isGlobal, find?_replace, isGlobal, same]
    split
    · rename_i here
      rw [here, found]
      exact global
    · rename_i apart
      exact (or_iff_left (mt (only other) apart)).symm

theorem grows_add {limit : Int} {symbol : Symbol} (absent : table.find? symbol.name = none)
    (h : table.add limit symbol = .ok table') (only : ∀ other ∈ declared, other = symbol.name)
    (global : symbol.isGlobal = true ↔ symbol.name ∈ declared) :
    Grows [symbol.name] declared table table' := by
  have names : table'.names = table.names ++ [symbol.name] := by
    rw [add] at h
    split at h
    · cases h
    · cases h
      exact List.map_append
  refine ⟨fun distinct ↦ ?_, fun other member ↦ ?_, fun other ↦ ?_⟩
  · rw [names]
    exact List.nodup_append.mpr ⟨distinct, by simp, fun old member new single same ↦
      notMem_names absent (List.mem_singleton.mp single ▸ same ▸ member)⟩
  · rw [names] at member
    exact List.mem_append.mp member
  · rw [isGlobal, find?_add h, isGlobal]
    by_cases here : symbol.name = other
    · rw [if_pos here, ← here, absent]
      simpa using global
    · rw [if_neg here, Option.or_none]
      exact (or_iff_left fun member ↦ here (only other member).symm).symm

theorem grows_declare {limit : Int} {name : String} {location : Location}
    (h : table.declare limit name location = .ok table') : Grows [name] [name] table table' := by
  have only : ∀ other ∈ [name], other = name := fun _ ↦ List.mem_singleton.mp
  rw [declare] at h
  split at h
  · rename_i old found
    cases h
    have named := name_of_find? found
    exact grows_replace found named only (by simp)
  · rename_i absent
    exact grows_add absent h only (by simp)

theorem grows_define {limit value : Int} {name : String} {location : Location} {binding : Binding}
    (h : table.define limit name value location binding = .ok table') :
    Grows [name] [] table table' := by
  rw [define] at h
  split at h
  · rename_i old found
    split at h
    · cases h
      have named := name_of_find? found
      exact grows_replace found named (by simp) (by simp)
    · cases h
  · rename_i absent
    exact grows_add absent h (by simp) (by simp)

end SymbolTable

/-! ## Names of a layout -/

namespace Statement

/-- The names that a statement declares global. -/
def declared (statement : Statement) : List String :=
  match statement.kind with
  | .directive .global arguments => arguments.filterMap (·.kind.symbol?)
  | .directive .globl arguments => arguments.filterMap (·.kind.symbol?)
  | _ => []

/-- The names that a statement binds or declares. -/
def mentioned (statement : Statement) : List String :=
  statement.bound?.toList ++ statement.declared

end Statement

theorem OperandKind.symbol?_eq_some {kind : OperandKind} {name : String} :
    kind.symbol? = some name ↔ kind = .symbol name := by
  cases kind <;> simp [symbol?]

theorem Statement.Named.isName {statement : Statement} (named : statement.Named) :
    ∀ name ∈ statement.mentioned, IsName name := by
  obtain ⟨slot, location, kind⟩ := statement
  intro name member
  obtain bound | declared := List.mem_append.mp member
  · rw [Option.mem_toList, Statement.bound?] at bound
    split at bound
    · rename_i label
      cases bound
      cases label
      exact named
    · rename_i equal
      cases bound
      cases equal
      exact named _ List.mem_cons_self _ rfl
    · rename_i equal
      cases bound
      cases equal
      exact named _ List.mem_cons_self _ rfl
    · cases bound
  · have argument {arguments : List Operand} (named : ∀ argument ∈ arguments, argument.Named)
        (member : name ∈ arguments.filterMap (·.kind.symbol?)) : IsName name := by
      obtain ⟨argument, among, found⟩ := List.mem_filterMap.mp member
      exact named argument among name (OperandKind.symbol?_eq_some.mp found)
    rw [Statement.declared] at declared
    split at declared
    · rename_i equal
      cases equal
      exact argument named declared
    · rename_i equal
      cases equal
      exact argument named declared
    · cases declared

namespace Layout

open SymbolTable

variable {limits : Limits} {layout layout' : Layout}

theorem grows_of_define {name : String} {value : Int} {location : Location}
    {binding : SymbolTable.Binding}
    (h : layout.define limits name value location binding = .ok layout') :
    Grows [name] [] layout.symbols layout'.symbols := grows_define (define_ok h).2

theorem grows_each {location : Location} {absent : DirectiveError} {arguments : List Operand}
    (h : layout.each location absent arguments (declare limits) = .ok layout') :
    Grows (arguments.filterMap (·.kind.symbol?)) (arguments.filterMap (·.kind.symbol?))
      layout.symbols layout'.symbols := by
  have folded := each_ok h
  clear h
  induction arguments generalizing layout with
  | nil =>
    cases folded
    exact .refl [] _
  | cons argument rest ih =>
    rw [List.foldlM_cons] at folded
    obtain ⟨next, step, folded⟩ := Selection.bind_eq_ok.mp folded
    have declared := attempt_eq_ok.mp step
    obtain ⟨slot, place, kind⟩ := argument
    cases kind with
    | symbol name =>
      obtain ⟨symbols, taken, result⟩ := Selection.bind_eq_ok.mp declared
      cases Selection.pure_eq_ok.mp result
      exact (grows_declare taken).trans (ih folded)
    | _ => cases declared

theorem grows_of_same {mentioned : List String} (same : layout'.symbols = layout.symbols) :
    Grows mentioned [] layout.symbols layout'.symbols := by
  rw [same]
  exact .refl mentioned _

/-- A statement adds the names that it binds and declares. -/
theorem grows_statement {statement : Statement}
    (h : layout.statement limits statement = .ok layout') :
    Grows statement.mentioned statement.declared layout.symbols layout'.symbols := by
  obtain ⟨slot, location, kind⟩ := statement
  cases kind with
  | label name => exact grows_of_define (attempt_eq_ok.mp h)
  | instruction mnemonic spelling operands =>
    exact grows_of_same (by rw [advance_ok (attempt_eq_ok.mp h)])
  | directive name arguments =>
    cases name with
    | text | data | bss | external =>
      cases h
      exact grows_of_same rfl
    | namedSection =>
      obtain ⟨_, -, result⟩ := Selection.bind_eq_ok.mp h
      cases Selection.pure_eq_ok.mp result
      exact grows_of_same rfl
    | global | globl => exact grows_each h
    | equ | set =>
      obtain ⟨_, _, name, rest, value, rfl, defined⟩ := bind_ok (attempt_eq_ok.mp h)
      exact grows_of_define defined
    | align | balign | p2align =>
      obtain ⟨padding, -, rfl⟩ := align_ok (attempt_eq_ok.mp h)
      exact grows_of_same rfl
    | byte | hword | word | quad =>
      refine grows_of_same (each_induction (fun layout layout' ↦ layout'.symbols = layout.symbols)
        (fun _ ↦ rfl) (fun first second ↦ second.trans first) (fun step ↦ ?_) h)
      rw [advance_ok step]
    | ascii | asciz | string =>
      refine grows_of_same (each_induction (fun layout layout' ↦ layout'.symbols = layout.symbols)
        (fun _ ↦ rfl) (fun first second ↦ second.trans first) (fun step ↦ ?_) h)
      obtain ⟨data, -, rfl⟩ := placeString_ok step
      rfl
    | space | skip =>
      obtain ⟨padding, -, rfl⟩ := reserve_ok (attempt_eq_ok.mp h)
      exact grows_of_same rfl

theorem grows_walk {statements : List Statement}
    (h : statements.foldlM (statement limits) layout = .ok layout') :
    Grows (statements.flatMap Statement.mentioned) (statements.flatMap Statement.declared)
      layout.symbols layout'.symbols := by
  induction statements generalizing layout with
  | nil =>
    cases h
    exact .refl [] _
  | cons statement rest ih =>
    rw [List.foldlM_cons] at h
    obtain ⟨next, step, h⟩ := Selection.bind_eq_ok.mp h
    exact (grows_statement step).trans (ih h)

/-- The names of a whole program stand in its table once, and are global if they are declared. -/
theorem grows_program {statements : List Statement} {layout : Layout}
    (laidOut : ofStatements limits statements = .ok layout) :
    layout.symbols.names.Nodup ∧
      (∀ name ∈ layout.symbols.names, ∃ statement ∈ statements, name ∈ statement.mentioned) ∧
      ∀ name, layout.symbols.isGlobal name = true ↔
        ∃ statement ∈ statements, name ∈ statement.declared := by
  have grows := grows_walk laidOut
  refine ⟨grows.distinct List.nodup_nil, fun name member ↦ ?_, fun name ↦ ?_⟩
  · obtain old | mentioned := grows.names name member
    · cases old
    · exact List.mem_flatMap.mp mentioned
  · rw [grows.global, List.mem_flatMap]
    exact or_iff_right Bool.false_ne_true

end Layout

end MiniA64
