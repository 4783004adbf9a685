import MiniA64.Assembly.Grammar

/-!
# How the grammar is put together

Every parser of the grammar is put together of a few: those that look at a token or take it, that
refuse one or make a node, and repetitions. Refusals and nodes stand at places of tokens, but for
the node of the whole program, and every node has a number of its own. What holds of every parser
that is put together like this is proved along its composition, once for all of the grammar.
-/

namespace MiniA64

/-- A diagnostic at a place, which does not show its line. -/
def Diagnostic.Placed (placed : Location → Prop) (diagnostic : Diagnostic) : Prop :=
  ∃ error location, placed location ∧ diagnostic = AssemblyError.locatedAt location error

/-- Places in a source, and numbers of nodes. -/
structure Ground where
  placed : Location → Prop
  made : Nat → Prop

namespace Parser

variable {ground : Ground}

/-- A parser that is put together of steps at places, and whose results are good. -/
inductive Built (ground : Ground) : {α : Type} → Parser α → (α → Prop) → Prop
  | pure {α : Type} {good : α → Prop} {result : α} (h : good result) :
    Built ground (Pure.pure result) good
  | bind {α β : Type} {first : Parser α} {second : α → Parser β} {between : α → Prop}
    {good : β → Prop} (h₁ : Built ground first between)
    (h₂ : ∀ item, between item → Built ground (second item) good) :
    Built ground (first >>= second) good
  | current : Built ground Parser.current fun token ↦ ground.placed token.location
  | following : Built ground Parser.following fun _ ↦ True
  | advance : Built ground Parser.advance fun _ ↦ True
  | refuse {α : Type} {token : Token} {error : GrammarError} {good : α → Prop}
    (here : ground.placed token.location) : Built ground (Parser.refuse token error) good
  | allocate {location : Location} (here : ground.placed location) :
    Built ground (Parser.allocate location) ground.made
  | many {α : Type} {item : Parser (Option α)} {consumes : Consumes item} {good : α → Prop}
    (h : Built ground item fun found ↦ ∀ one ∈ found, good one) :
    Built ground (Parser.many item consumes) fun items ↦ ∀ one ∈ items, good one

namespace Built

theorem accept (kind : TokenKind) : Built ground (Parser.accept kind) fun _ ↦ True := by
  refine .bind .current fun token _ ↦ ?_
  split
  · exact .bind .advance fun _ _ ↦ .pure trivial
  · exact .pure trivial

theorem expect (kind : TokenKind) (error : GrammarError) :
    Built ground (Parser.expect kind error) fun _ ↦ True := by
  refine .bind .current fun token here ↦ ?_
  split
  · exact .advance
  · exact .refuse here

theorem identifier (error : GrammarError) :
    Built ground (Parser.identifier error) fun _ ↦ True := by
  refine .bind .current fun token here ↦ ?_
  split
  · exact .bind .advance fun _ _ ↦ .pure trivial
  · exact .refuse here

theorem number (error : GrammarError) : Built ground (Parser.number error) fun _ ↦ True := by
  refine .bind .current fun token here ↦ ?_
  split
  · exact .bind .advance fun _ _ ↦ .pure trivial
  · exact .refuse here

theorem signedNumber (error : GrammarError) :
    Built ground (Parser.signedNumber error) fun _ ↦ True :=
  .bind (accept _) fun _ _ ↦ .bind (number _) fun _ _ ↦ .pure trivial

theorem afterComma {α : Type} {item : Parser α} {good : α → Prop} (h : Built ground item good) :
    Built ground (Parser.afterComma item) fun found ↦ ∀ one ∈ found, good one := by
  refine .bind .current fun token _ ↦ ?_
  split
  · refine .bind .advance fun _ _ ↦ .bind h fun one hone ↦ .pure ?_
    rintro _ ⟨⟩
    exact hone
  · exact .pure nofun

theorem commaSeparated {α : Type} {item : Parser α} {shrinks : Shrinks item} {good : α → Prop}
    (h : Built ground item good) :
    Built ground (Parser.commaSeparated item shrinks) fun items ↦ ∀ one ∈ items, good one :=
  .bind h fun _ hone ↦ .bind (.many (afterComma h)) fun _ hrest ↦
    .pure (List.forall_mem_cons.mpr ⟨hone, hrest⟩)

end Built

/-! ## What parsers that are built keep -/

/-- Tokens at places, the last of which is never taken, and a pool of numbers. -/
structure Stocked (ground : Ground) (state : ParserState) : Prop where
  places : ∀ token ∈ state.tokens, ground.placed token.location
  ends : ∃ last ∈ state.tokens.getLast?, last.kind.isFinal = true
  made : ∀ slot : Nat, slot < state.pool.capacity → ground.made slot

namespace Stocked

variable {state : ParserState}

theorem current (stocked : Stocked ground state) : ground.placed state.current.location := by
  obtain ⟨last, ends, -⟩ := stocked.ends
  cases tokens : state.tokens with
  | nil =>
    rw [tokens] at ends
    cases ends
  | cons token rest =>
    rw [ParserState.current, tokens]
    exact stocked.places token (tokens ▸ List.mem_cons_self)

theorem advance (stocked : Stocked ground state) : Stocked ground state.advance := by
  unfold ParserState.advance
  split
  · exact stocked
  · rename_i taken
    obtain ⟨last, ends, final⟩ := stocked.ends
    obtain ⟨_ | ⟨token, _ | ⟨next, rest⟩⟩, pool⟩ := state
    · cases ends
    · cases ends
      exact absurd final taken
    · exact ⟨fun other member ↦ stocked.places other (List.mem_cons_of_mem _ member),
        ⟨last, ends, final⟩, stocked.made⟩

end Stocked

/-- The tokens of a source end with the first one that is never taken. -/
theorem Stocked.tokens {file : String} {cursor : Cursor} {pool : NodePool}
    (places : ∀ token ∈ cursor.tokens file, ground.placed token.location)
    (made : ∀ slot : Nat, slot < pool.capacity → ground.made slot) :
    Stocked ground ⟨cursor.tokens file, pool⟩ := by
  refine ⟨places, ?_, made⟩
  clear places
  show ∃ last ∈ (cursor.tokens file).getLast?, last.kind.isFinal = true
  fun_induction Cursor.tokens file cursor with
  | case1 cursor step final => exact ⟨_, rfl, final⟩
  | case2 cursor step going ih =>
    obtain ⟨last, ends, final⟩ := ih
    refine ⟨last, ?_, final⟩
    rw [List.getLast?_cons, ends]
    rfl

theorem allocate_full {state : ParserState} {location : Location}
    (full : state.pool.capacity ≤ state.pool.used) :
    Parser.allocate location state =
      .error ((AssemblyError.nodePoolExhausted state.pool.capacity).locatedAt location) :=
  if_pos full

theorem allocate_free {state : ParserState} {location : Location}
    (free : state.pool.used < state.pool.capacity) :
    Parser.allocate location state =
      .ok (state.pool.used,
        { state with pool := { state.pool with used := state.pool.used + 1 } }) :=
  if_neg (Int.not_le.mpr free)

variable {α : Type} {parser : Parser α} {good : α → Prop}

/-- A result is good and leaves stock, and a diagnostic stands at a place. -/
def Sound (ground : Ground) {α : Type} (good : α → Prop) :
    Except Diagnostic (α × ParserState) → Prop
  | .ok (result, after) => good result ∧ Stocked ground after
  | .error diagnostic => diagnostic.Placed ground.placed

theorem Sound.bind {β : Type} {first : Except Diagnostic (α × ParserState)}
    {second : α × ParserState → Except Diagnostic (β × ParserState)} {between : α → Prop}
    {good : β → Prop} (begun : Sound ground between first)
    (ended : ∀ item state, between item → Stocked ground state →
      Sound ground good (second (item, state))) : Sound ground good (first >>= second) := by
  cases first with
  | error diagnostic => exact begun
  | ok pair => exact ended pair.1 pair.2 begun.1 begun.2

/-- Where tokens stand at places, so do errors, and results are good. -/
theorem Built.sound (built : Built ground parser good) {state : ParserState}
    (stocked : Stocked ground state) : Sound ground good (parser state) := by
  induction built generalizing state with
  | pure h => exact ⟨h, stocked⟩
  | bind h₁ h₂ ih₁ ih₂ => exact (ih₁ stocked).bind fun item state holds left ↦ ih₂ item holds left
  | current => exact ⟨stocked.current, stocked⟩
  | following => exact ⟨trivial, stocked⟩
  | advance => exact ⟨trivial, stocked.advance⟩
  | refuse here => exact ⟨_, _, here, rfl⟩
  | @allocate location here =>
    by_cases full : state.pool.capacity ≤ state.pool.used
    · rw [allocate_full full]
      exact ⟨_, _, here, rfl⟩
    · have free := Int.not_le.mp full
      rw [allocate_free free]
      exact ⟨stocked.made _ free, stocked.places, stocked.ends, stocked.made⟩
  | @many α item consumes good h ih =>
    fun_induction Parser.many item consumes state with
    | case1 state diagnostic step =>
      have found := ih stocked
      rw [step] at found
      exact found
    | case2 state after step =>
      have found := ih stocked
      rw [step] at found
      exact ⟨List.forall_mem_nil _, found.2⟩
    | case3 state first after step diagnostic failed later =>
      have found := ih stocked
      rw [step] at found
      have others := later found.2
      rw [failed] at others
      exact others
    | case4 state first after step rest last tail later =>
      have found := ih stocked
      rw [step] at found
      have others := later found.2
      rw [tail] at others
      exact ⟨List.forall_mem_cons.mpr ⟨found.1 first rfl, others.1⟩, others.2⟩

end Parser

/-! ## The grammar -/

/-- The operand has a place and a number. -/
structure Operand.StandsOn (ground : Ground) (operand : Operand) : Prop where
  here : ground.placed operand.location
  slot : ground.made operand.slot

/-- The statement and its operands have places and numbers. -/
structure Statement.StandsOn (ground : Ground) (statement : Statement) : Prop where
  here : ground.placed statement.location
  slot : ground.made statement.slot
  operands : ∀ operand ∈ statement.kind.operands, operand.StandsOn ground

namespace Grammar

open MiniA64.Parser

variable {ground : Ground}

theorem built_register (error : GrammarError) :
    Built ground (register error) fun _ ↦ True := by
  refine .bind .current fun token here ↦ ?_
  split
  · split
    · exact .bind .advance fun _ _ ↦ .pure trivial
    · exact .refuse here
  · exact .refuse here

theorem built_baseRegister {opening : Token} (here : ground.placed opening.location) :
    Built ground (baseRegister opening) fun _ ↦ True := by
  refine .bind (built_register _) fun base _ ↦ ?_
  split
  · exact .refuse here
  split
  · exact .refuse here
  · exact .pure trivial

theorem built_indexRegister {opening : Token} (here : ground.placed opening.location) :
    Built ground (indexRegister opening) fun _ ↦ True := by
  refine .bind (built_register _) fun index _ ↦ ?_
  split
  · exact .refuse here
  · exact .pure trivial

theorem built_displacement {opening : Token} (here : ground.placed opening.location) :
    Built ground (displacement opening) fun _ ↦ True := by
  refine .bind (.accept _) fun comma _ ↦ ?_
  split
  · refine .bind (.accept _) fun hash _ ↦ ?_
    split
    · exact .bind (.signedNumber _) fun _ _ ↦ .pure trivial
    · refine .bind .current fun token _ ↦ ?_
      split
      · exact .bind (built_indexRegister here) fun _ _ ↦ .pure trivial
      · exact .bind (.signedNumber _) fun _ _ ↦ .pure trivial
  · exact .pure trivial

theorem built_preIndexed {opening : Token} (here : ground.placed opening.location)
    (inside : MemoryForm) :
    Built ground (preIndexed opening inside) fun _ ↦ True := by
  refine .bind (.accept _) fun bang _ ↦ ?_
  split
  · split
    · exact .pure trivial
    · exact .refuse here
  · exact .pure trivial

theorem built_postIndexed {opening : Token} (here : ground.placed opening.location)
    (form : MemoryForm) :
    Built ground (postIndexed opening form) fun _ ↦ True := by
  refine .bind .current fun token _ ↦ .bind .following fun next _ ↦ ?_
  split
  · split
    · exact .refuse here
    · exact .bind .advance fun _ _ ↦ .bind .advance fun _ _ ↦
        .bind (.signedNumber _) fun _ _ ↦ .pure trivial
    · exact .refuse here
  · exact .pure trivial

theorem built_memory {opening : Token} (here : ground.placed opening.location) :
    Built ground (memory opening) fun _ ↦ True :=
  .bind (built_baseRegister here) fun _ _ ↦ .bind (built_displacement here) fun _ _ ↦
    .bind (.expect _ _) fun _ _ ↦ .bind (built_preIndexed here _) fun _ _ ↦
      .bind (built_postIndexed here _) fun _ _ ↦ .pure trivial

theorem built_immediateOrSymbol : Built ground immediateOrSymbol fun _ ↦ True := by
  refine .bind .current fun token _ ↦ ?_
  split
  · exact .bind .advance fun _ _ ↦ .pure trivial
  · exact .bind (.signedNumber _) fun _ _ ↦ .pure trivial

theorem built_named (name : String) : Built ground (named name) fun _ ↦ True := by
  unfold named
  split
  · exact .bind .advance fun _ _ ↦ .pure trivial
  split
  · refine .bind .following fun next _ ↦ ?_
    split
    · exact .bind .advance fun _ _ ↦ .bind .advance fun _ _ ↦
        .bind (.signedNumber _) fun _ _ ↦ .pure trivial
    · exact .bind .advance fun _ _ ↦ .pure trivial
  · exact .bind .advance fun _ _ ↦ .pure trivial

theorem built_operandKind {token : Token} (here : ground.placed token.location) :
    Built ground (operandKind token) fun _ ↦ True := by
  unfold operandKind
  split
  · exact .bind .advance fun _ _ ↦ .bind (built_memory here) fun _ _ ↦ .pure trivial
  · exact .bind .advance fun _ _ ↦ built_immediateOrSymbol
  · exact built_named _
  · exact .bind (.signedNumber _) fun _ _ ↦ .pure trivial
  · exact .bind (.signedNumber _) fun _ _ ↦ .pure trivial
  · exact .refuse here

theorem built_operand : Built ground operand (·.StandsOn ground) :=
  .bind .current fun _ here ↦ .bind (built_operandKind here) fun _ _ ↦
    .bind (.allocate here) fun _ slot ↦ .pure ⟨here, slot⟩

theorem built_argumentKind (token : Token) :
    Built ground (argumentKind token) fun _ ↦ True := by
  unfold argumentKind
  split
  · exact .bind .advance fun _ _ ↦ .pure trivial
  · exact .bind .advance fun _ _ ↦ .pure trivial
  · exact .bind .advance fun _ _ ↦ .bind (.identifier _) fun _ _ ↦ .pure trivial
  · exact .bind .advance fun _ _ ↦ .bind (.signedNumber _) fun _ _ ↦ .pure trivial
  · exact .bind (.signedNumber _) fun _ _ ↦ .pure trivial

theorem built_argument : Built ground argument (·.StandsOn ground) :=
  .bind .current fun token here ↦ .bind (built_argumentKind token) fun _ _ ↦
    .bind (.allocate here) fun _ slot ↦ .pure ⟨here, slot⟩

theorem built_operandList {item : Parser Operand} {shrinks : Shrinks item}
    (h : Built ground item (·.StandsOn ground)) :
    Built ground (operandList item shrinks) fun operands ↦
      ∀ operand ∈ operands, operand.StandsOn ground := by
  refine .bind .current fun token _ ↦ ?_
  split
  · exact .pure nofun
  · exact .pure nofun
  · exact .commaSeparated h

theorem built_endOfStatement : Built ground endOfStatement fun _ ↦ True := by
  refine .bind .current fun token here ↦ ?_
  split
  · exact .advance
  · exact .pure trivial
  · exact .refuse here

theorem built_instruction {first : Token} (here : ground.placed first.location)
    (spelling : String) :
    Built ground (instruction first spelling) (·.StandsOn ground) := by
  unfold instruction
  split
  · exact .refuse here
  · exact .bind (built_operandList built_operand) fun _ operands ↦
      .bind (.allocate here) fun _ slot ↦ .bind built_endOfStatement fun _ _ ↦
        .pure ⟨here, slot, operands⟩

theorem built_directiveName : Built ground directiveName fun _ ↦ True := by
  refine .bind .current fun token here ↦ .bind (.identifier _) fun spelling _ ↦ ?_
  split
  · exact .pure trivial
  · exact .refuse here

theorem built_directive {dot : Token} (here : ground.placed dot.location) :
    Built ground (directive dot) (·.StandsOn ground) :=
  .bind built_directiveName fun _ _ ↦ .bind (built_operandList built_argument) fun _ operands ↦
    .bind (.allocate here) fun _ slot ↦ .bind built_endOfStatement fun _ _ ↦
      .pure ⟨here, slot, operands⟩

theorem built_label {first : Token} (here : ground.placed first.location) (name : String) :
    Built ground (label first name) (·.StandsOn ground) :=
  .bind .advance fun _ _ ↦ .bind (.allocate here) fun _ slot ↦ .pure ⟨here, slot, nofun⟩

theorem built_namedStatement {first : Token} (here : ground.placed first.location) (name : String)
    (next : TokenKind) : Built ground (namedStatement first name next) (·.StandsOn ground) := by
  unfold namedStatement
  split
  · exact built_label here name
  · exact built_instruction here name

theorem built_statement? :
    Built ground statement? fun found ↦
      ∀ line ∈ found, ∀ statement ∈ line, statement.StandsOn ground := by
  refine .bind .current fun first here ↦ .bind .following fun next _ ↦ ?_
  split
  · exact .pure (by simp)
  · exact .bind .advance fun _ _ ↦ .pure (by simp)
  · refine .bind .advance fun _ _ ↦ .bind (built_directive here) fun statement stands ↦ .pure ?_
    simpa using stands
  · refine .bind .advance fun _ _ ↦
      .bind (built_namedStatement here _ _) fun statement stands ↦ .pure ?_
    simpa using stands
  · exact .refuse here

theorem built_program {file : String} (top : ground.placed ⟨file, 1, 1⟩) :
    Built ground (program file) fun result ↦
      ground.made result.1 ∧ ∀ statement ∈ result.2, statement.StandsOn ground := by
  refine .bind (.allocate top) fun root made ↦ .bind (.many built_statement?) fun lines stand ↦
    .pure ⟨made, fun statement member ↦ ?_⟩
  obtain ⟨line, among, found⟩ := List.mem_filterMap.mp member
  exact stand line among statement found

end Grammar

/-- A program that is read is what the grammar makes of the tokens of its source. -/
theorem Program.exists_run_of_parse {source file : String} {capacity : Int} {program : Program}
    (read : Program.parse source file capacity = .ok program) :
    ∃ after, Grammar.program file ⟨(Cursor.start source 1).tokens file, ⟨capacity, 0⟩⟩ =
        .ok ((program.root, program.statements), after) ∧
      program = ⟨source, file, program.root, program.statements, after.pool.used⟩ := by
  unfold parse at read
  dsimp only at read
  split at read
  · rename_i root statements after ran
    cases read
    exact ⟨after, ran, rfl⟩
  · split at read <;> cases read

end MiniA64
