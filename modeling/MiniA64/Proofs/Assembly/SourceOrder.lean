import MiniA64.Proofs.Assembly.Derivations

/-!
# The order of a source

Tokens stand one behind the other in their source, and no two of them at the same place. A parser
takes tokens from the front only, so what it makes of them stands in the order of the source too:
each statement, and behind it its operands.
-/

namespace MiniA64

/-- The place comes earlier in a source, line by line and from left to right. -/
def Location.Before (earlier later : Location) : Prop :=
  earlier.line < later.line ∨ earlier.line = later.line ∧ earlier.column < later.column

/-- Where a statement and its operands begin. -/
def Statement.places (statement : Statement) : List Location :=
  statement.location :: statement.kind.operands.map (·.location)

/-! ## Tokens -/

namespace Cursor

/-- The place is not later in the source than another one. -/
def UpTo (earlier later : Cursor) : Prop :=
  earlier.line < later.line ∨ earlier.line = later.line ∧ earlier.column ≤ later.column

variable {cursor later : Cursor} {file : String}

theorem UpTo.refl (cursor : Cursor) : cursor.UpTo cursor := .inr ⟨rfl, Int.le_refl _⟩

theorem UpTo.trans {last : Cursor} (first : cursor.UpTo later) (second : later.UpTo last) :
    cursor.UpTo last := by
  unfold UpTo at *
  omega

theorem upTo_skip (count : Nat) (cursor : Cursor) : cursor.UpTo (cursor.skip count) := by
  induction count generalizing cursor with
  | zero => exact .refl _
  | succ count ih =>
    obtain ⟨_ | ⟨c, rest⟩, line, column, offset⟩ := cursor
    · exact .refl _
    · rw [skip]
      dsimp only
      split
      · exact .trans (.inl (by show line < line + 1; omega)) (ih _)
      · have moved : UpTo ⟨c :: rest, line, column, offset⟩ ⟨rest, line, column + 1, offset + 1⟩ :=
          .inr ⟨rfl, by show column ≤ column + 1; omega⟩
        exact moved.trans (ih _)

/-- Behind at least one character the place is a later one. -/
theorem before_skip {count : Nat} (some : 0 < count) (more : cursor.rest ≠ [])
    (upTo : (cursor.skip count).UpTo later) :
    (cursor.location file).Before (later.location file) := by
  obtain ⟨_ | ⟨c, rest⟩, line, column, offset⟩ := cursor
  · exact absurd rfl more
  obtain ⟨count, rfl⟩ := Nat.exists_eq_succ_of_ne_zero (Nat.ne_of_gt some)
  rw [skip] at upTo
  dsimp only at upTo
  unfold Location.Before location
  split at upTo
  · have moved := (upTo_skip count _).trans upTo
    unfold UpTo at moved
    dsimp only at moved ⊢
    omega
  · have moved := (upTo_skip count _).trans upTo
    unfold UpTo at moved
    dsimp only at moved ⊢
    omega

theorem upTo_of_mem_tokens {token : Token} (member : token ∈ cursor.tokens file) :
    ∃ place, token.location = place.location file ∧ cursor.UpTo place := by
  fun_induction tokens file cursor with
  | case1 cursor step final =>
    obtain rfl := List.mem_singleton.mp member
    exact ⟨cursor.skipTrivia, rfl, upTo_skip _ _⟩
  | case2 cursor step going ih =>
    obtain rfl | later := List.mem_cons.mp member
    · exact ⟨cursor.skipTrivia, rfl, upTo_skip _ _⟩
    · obtain ⟨place, here, behind⟩ := ih later
      exact ⟨place, here, ((upTo_skip _ _).trans (upTo_skip _ _)).trans behind⟩

/-- Tokens stand one behind the other. -/
theorem tokens_ordered (file : String) (cursor : Cursor) :
    (cursor.tokens file).Pairwise fun first second ↦ first.location.Before second.location := by
  fun_induction tokens file cursor with
  | case1 => exact List.pairwise_singleton _ _
  | case2 cursor step going ih =>
    refine List.pairwise_cons.mpr ⟨fun token member ↦ ?_, ih⟩
    obtain ⟨place, here, behind⟩ := upTo_of_mem_tokens member
    have plain : (Lexeme.scan cursor.skipTrivia.rest).1.isFinal = false :=
      Bool.eq_false_iff.mpr going
    have more : cursor.skipTrivia.rest ≠ [] := by
      intro none
      rw [none] at plain
      cases plain
    rw [here]
    exact before_skip (Lexeme.scan_pos _ plain) more behind

end Cursor

/-! ## What parsers take -/

namespace Parser

/-- A ground without conditions. -/
def anywhere : Ground := ⟨fun _ ↦ True, fun _ ↦ True⟩

variable {α β : Type} {parser : Parser α} {good : α → Prop} {state after : ParserState}

/-- A parser leaves the tokens that it does not take from the front. -/
theorem Built.suffix (built : Built anywhere parser good) (stocked : Stocked anywhere state)
    {result : α} (done : parser state = .ok (result, after)) : after.tokens <:+ state.tokens := by
  induction built generalizing state after with
  | pure h =>
    cases done
    exact List.suffix_refl _
  | bind h₁ h₂ ih₁ ih₂ =>
    obtain ⟨item, between, begun, ended⟩ := bind_eq_ok done
    have sound := h₁.sound stocked
    rw [begun] at sound
    exact (ih₂ item sound.1 sound.2 ended).trans (ih₁ stocked begun)
  | current =>
    cases done
    exact List.suffix_refl _
  | following =>
    cases done
    exact List.suffix_refl _
  | advance =>
    cases done
    unfold ParserState.advance
    split
    · exact List.suffix_refl _
    · exact List.tail_suffix _
  | refuse here => cases done
  | allocate here =>
    unfold Parser.allocate at done
    split at done
    · cases done
    · cases done
      exact List.suffix_refl _
  | @many α item consumes good h ih =>
    fun_induction Parser.many item consumes state generalizing result after with
    | case1 => cases done
    | case2 state between step =>
      cases done
      exact ih stocked step
    | case3 => cases done
    | case4 state first between step rest last tail later =>
      cases done
      have sound := h.sound stocked
      rw [step] at sound
      exact (later sound.2 tail).trans (ih stocked step)

/-- What a parser makes from here on fits the tokens that it takes. -/
def ReadsAt (state : ParserState) (parser : Parser α) (fits : α → List Token → Prop) : Prop :=
  Stocked anywhere state → ∀ result after, parser state = .ok (result, after) →
    Stocked anywhere after ∧ ∃ taken, state.tokens = taken ++ after.tokens ∧ fits result taken

/-- What a parser makes fits the tokens that it takes. -/
def Reads (parser : Parser α) (fits : α → List Token → Prop) : Prop :=
  ∀ state, ReadsAt state parser fits

variable {fits : β → List Token → Prop}

theorem Built.reads (built : Built anywhere parser good) : Reads parser fun _ _ ↦ True := by
  intro state stocked result after done
  have sound := built.sound stocked
  rw [done] at sound
  obtain ⟨taken, split⟩ := built.suffix stocked done
  exact ⟨sound.2, taken, split.symm, trivial⟩

namespace ReadsAt

theorem mono {weak : α → List Token → Prop} {fits : α → List Token → Prop}
    (h : ReadsAt state parser fits)
    (weaken : ∀ result taken, fits result taken → weak result taken) :
    ReadsAt state parser weak := by
  intro stocked result after done
  obtain ⟨stocked, taken, split, holds⟩ := h stocked result after done
  exact ⟨stocked, taken, split, weaken result taken holds⟩

theorem pure {result : β} (h : fits result []) : ReadsAt state (Pure.pure result) fits := by
  rintro stocked _ _ ⟨⟩
  exact ⟨stocked, [], rfl, h⟩

theorem bind {first : Parser α} {second : α → Parser β} {between : α → List Token → Prop}
    (h₁ : ReadsAt state first between)
    (h₂ : ∀ item some, between item some → Reads (second item) fun result taken ↦
      fits result (some ++ taken)) : ReadsAt state (first >>= second) fits := by
  intro stocked result after done
  obtain ⟨item, middle, begun, ended⟩ := bind_eq_ok done
  obtain ⟨stocked, some, split, holds⟩ := h₁ stocked item middle begun
  obtain ⟨stocked, taken, rest, last⟩ := h₂ item some holds middle stocked result after ended
  exact ⟨stocked, some ++ taken, by rw [split, rest, List.append_assoc], last⟩

theorem current {second : Token → Parser β} (h : ReadsAt state (second state.current) fits) :
    ReadsAt state (Parser.current >>= second) fits := h

theorem following {second : TokenKind → Parser β}
    (h : ReadsAt state (second state.following) fits) :
    ReadsAt state (Parser.following >>= second) fits := h

/-- Taking the current token and going on. -/
theorem advance {second : Unit → Parser β} (plain : state.current.kind.isFinal = false)
    (h : Reads (second ()) fun result taken ↦ fits result (state.current :: taken)) :
    ReadsAt state (Parser.advance >>= second) fits := by
  intro stocked result after done
  obtain ⟨stocked, taken, split, holds⟩ := h state.advance stocked.advance result after done
  refine ⟨stocked, state.current :: taken, ?_, holds⟩
  rw [List.cons_append, ← split, ParserState.advance, if_neg (by rw [plain]; decide)]
  obtain ⟨last, ends, -⟩ := ‹Stocked anywhere state›.ends
  obtain ⟨_ | ⟨token, rest⟩, pool⟩ := state
  · cases ends
  · rfl

theorem refuse {token : Token} {error : GrammarError} :
    ReadsAt state (Parser.refuse token error) fits :=
  fun _ _ _ done ↦ by cases done

end ReadsAt

/-- A repetition reads one item after the other. -/
theorem Reads.many {item : Parser (Option α)} {consumes : Consumes item}
    {one : α → List Token → Prop} {all : List α → List Token → Prop}
    (h : Reads item fun found taken ↦ ∀ first ∈ found, one first taken)
    (none : ∀ taken, all [] taken)
    (some : ∀ first rest taken others, one first taken → all rest others →
      all (first :: rest) (taken ++ others)) : Reads (Parser.many item consumes) all := by
  intro state stocked result after done
  fun_induction Parser.many item consumes state generalizing result after with
  | case1 => cases done
  | case2 state between step =>
    cases done
    obtain ⟨stocked, taken, split, -⟩ := h state stocked _ _ step
    exact ⟨stocked, taken, split, none taken⟩
  | case3 => cases done
  | case4 state first between step rest last tail later =>
    cases done
    obtain ⟨stocked, taken, split, holds⟩ := h state stocked _ _ step
    obtain ⟨stocked, others, behind, all⟩ := later stocked _ _ tail
    exact ⟨stocked, taken ++ others, by rw [split, behind, List.append_assoc],
      some first rest taken others (holds first rfl) all⟩

/-- The current token is the first one that is taken. -/
theorem ReadsAt.taking {second : Unit → Parser α} (plain : state.current.kind.isFinal = false)
    (built : Built anywhere (second ()) fun _ ↦ True) :
    ReadsAt state (Parser.advance >>= second) fun _ taken ↦ ∃ rest, taken = state.current :: rest :=
  .advance plain fun later ↦ (built.reads later).mono fun _ taken _ ↦ ⟨taken, rfl⟩

theorem ReadsAt.andPure {first : Parser α} {finish : α → β} {fits : List Token → Prop}
    (h : ReadsAt state first fun _ taken ↦ fits taken) :
    ReadsAt state (first >>= fun item ↦ Pure.pure (finish item)) fun _ taken ↦ fits taken :=
  h.bind fun item some holds later ↦ .pure (by rw [List.append_nil]; exact holds)

theorem readsAt_signedNumber (error : GrammarError) :
    ReadsAt state (signedNumber error) fun _ taken ↦ ∃ rest, taken = state.current :: rest := by
  rw [signedNumber, accept, bind_assoc]
  refine .current ?_
  split
  · rename_i minus
    rw [bind_assoc]
    refine .taking (by rw [minus]; rfl) ?_
    have sign : Built anywhere (pure true : Parser Bool) fun _ ↦ True := .pure trivial
    exact sign.bind fun _ _ ↦ .bind (.number _) fun _ _ ↦ .pure trivial
  · rw [pure_bind]
    refine .andPure (.current ?_)
    cases kind : state.current.kind with
    | number value => exact .taking (by rw [kind]; rfl) (.pure trivial)
    | _ => exact .refuse

end Parser

/-! ## Statements -/

namespace Grammar

open MiniA64.Parser

variable {state : ParserState}

theorem readsAt_operandKind :
    ReadsAt state (operandKind state.current) fun _ taken ↦
      ∃ rest, taken = state.current :: rest := by
  unfold operandKind
  cases kind : state.current.kind with
  | leftBracket =>
    exact .taking (by rw [kind]; rfl)
      (.bind (built_memory trivial) fun _ _ ↦ .pure trivial)
  | hash => exact .taking (by rw [kind]; rfl) built_immediateOrSymbol
  | identifier name =>
    have plain : state.current.kind.isFinal = false := by rw [kind]; rfl
    have simple (found : OperandKind) :
        Built anywhere (pure found : Parser OperandKind) fun _ ↦ True := .pure trivial
    dsimp only
    unfold named
    split
    · exact .taking plain (simple _)
    split
    · refine .following ?_
      split
      · exact .taking plain (.bind .advance fun _ _ ↦
          .bind (.signedNumber _) fun _ _ ↦ .pure trivial)
      · exact .taking plain (simple _)
    · exact .taking plain (simple _)
  | number value => exact .andPure (readsAt_signedNumber _)
  | minus => exact .andPure (readsAt_signedNumber _)
  | _ => exact .refuse

theorem readsAt_argumentKind :
    ReadsAt state (argumentKind state.current) fun _ taken ↦
      ∃ rest, taken = state.current :: rest := by
  have simple (found : OperandKind) :
      Built anywhere (pure found : Parser OperandKind) fun _ ↦ True := .pure trivial
  unfold argumentKind
  cases kind : state.current.kind with
  | identifier name => exact .taking (by rw [kind]; rfl) (simple _)
  | string raw => exact .taking (by rw [kind]; rfl) (simple _)
  | dot =>
    exact .taking (by rw [kind]; rfl)
      (.bind (.identifier _) fun _ _ ↦ .pure trivial)
  | hash =>
    exact .taking (by rw [kind]; rfl)
      (.bind (.signedNumber _) fun _ _ ↦ .pure trivial)
  | _ => exact .andPure (readsAt_signedNumber _)

/-- The places stand among the tokens in the same order. -/
def Placed (places : List Location) (taken : List Token) : Prop :=
  places.Sublist (taken.map (·.location))

theorem Placed.append {places others : List Location} {taken more : List Token}
    (front : Placed places taken) (back : Placed others more) :
    Placed (places ++ others) (taken ++ more) := by
  rw [Placed, List.map_append]
  exact List.Sublist.append front back

theorem Placed.extend {places : List Location} {taken : List Token}
    (placed : Placed places taken) (more : List Token) : Placed places (taken ++ more) := by
  rw [← List.append_nil places]
  exact placed.append (List.nil_sublist _)

theorem Placed.widen {places : List Location} {taken : List Token} (more : List Token)
    (placed : Placed places taken) : Placed places (more ++ taken) :=
  Placed.append (List.nil_sublist _) placed

/-- An operand stands at the first of its tokens. -/
theorem reads_node {kind : Token → Parser OperandKind}
    (h : ∀ state : ParserState, ReadsAt state (kind state.current) fun _ taken ↦
      ∃ rest, taken = state.current :: rest) :
    Reads (do
      let token ← Parser.current
      let kind ← kind token
      return ⟨← allocate token.location, token.location, kind⟩ : Parser Operand)
      fun operand taken ↦ Placed [operand.location] taken := by
  intro state
  refine .current ((h state).bind ?_)
  rintro found _ ⟨rest, rfl⟩ later
  have made : Built anywhere (allocate state.current.location) fun _ ↦ True := .allocate trivial
  refine (made.reads later).bind fun slot taken _ last ↦ .pure ?_
  exact List.Sublist.cons_cons _ (List.nil_sublist _)

theorem reads_operandList {item : Parser Operand} {shrinks : Shrinks item}
    (h : Reads item fun operand taken ↦ Placed [operand.location] taken) :
    Reads (operandList item shrinks) fun operands taken ↦
      Placed (operands.map (·.location)) taken := by
  have next : Reads (afterComma item) fun found taken ↦
      ∀ operand ∈ found, Placed [operand.location] taken := by
    intro state
    refine .current ?_
    split
    · rename_i comma
      refine .advance (by rw [comma]; rfl) fun later ↦ (h later).bind ?_
      refine fun operand taken placed last ↦ .pure ?_
      rintro _ ⟨⟩
      rw [List.append_nil]
      exact placed.widen [state.current]
    · exact .pure nofun
  have rest : Reads (many (afterComma item) (afterComma_consumes shrinks)) fun operands taken ↦
      Placed (operands.map (·.location)) taken :=
    .many next (fun _ ↦ List.nil_sublist _) fun _ _ _ _ front back ↦ front.append back
  intro state
  refine .current ?_
  have list : ReadsAt state (commaSeparated item shrinks) fun operands taken ↦
      Placed (operands.map (·.location)) taken := by
    refine (h state).bind fun first taken front later ↦ (rest later).bind ?_
    intro others more back last
    refine .pure ?_
    rw [List.append_nil]
    exact front.append back
  split
  · exact .pure (List.nil_sublist _)
  · exact .pure (List.nil_sublist _)
  · exact list

/-- The statement stands at a place, and its operands behind it. -/
def Stands (location : Location) (statement : Statement) (taken : List Token) : Prop :=
  statement.location = location ∧ Placed (statement.kind.operands.map (·.location)) taken

theorem Stands.places {statement : Statement} {token : Token} {taken : List Token}
    (stands : Stands token.location statement taken) :
    Placed statement.places (token :: taken) := by
  rw [Placed, Statement.places, stands.1]
  exact stands.2.cons_cons _

/-- A statement is made behind its operands, up to the end of its line. -/
theorem reads_finish {location : Location} {finish : Nat → StatementKind} {operands : List Operand}
    {front : List Token} (placed : Placed (operands.map (·.location)) front)
    (same : ∀ slot, (finish slot).operands = operands) :
    Reads (do
      let slot ← allocate location
      endOfStatement
      return ⟨slot, location, finish slot⟩) fun statement taken ↦
        Stands location statement (front ++ taken) := by
  intro state
  have made : Built anywhere (allocate location) fun _ ↦ True := .allocate trivial
  refine (made.reads state).bind fun slot some _ later ↦
    (built_endOfStatement.reads later).bind fun _ more _ last ↦ .pure ⟨rfl, ?_⟩
  rw [same]
  exact placed.extend _

theorem reads_instruction (first : Token) (spelling : String) :
    Reads (instruction first spelling) (Stands first.location) := by
  intro state
  unfold instruction
  split
  · exact .refuse
  · exact (reads_operandList (reads_node fun _ ↦ readsAt_operandKind) state).bind
      fun operands taken placed ↦ reads_finish placed fun _ ↦ rfl

theorem reads_directive (dot : Token) : Reads (directive dot) (Stands dot.location) := by
  intro state
  refine (built_directiveName.reads state).bind fun name front _ later ↦
    (reads_operandList (reads_node fun _ ↦ readsAt_argumentKind) later).bind
      fun operands taken placed last ↦ ?_
  refine (reads_finish (placed.widen front) (fun _ ↦ rfl) last).mono fun statement more stands ↦ ?_
  rwa [List.append_assoc] at stands

theorem reads_label (first : Token) (name : String) :
    Reads (label first name) (Stands first.location) := by
  intro state
  have built : Built anywhere (label first name) fun statement ↦
      statement.location = first.location ∧ statement.kind.operands = [] :=
    .bind .advance fun _ _ ↦ .bind (.allocate trivial) fun _ _ ↦ .pure ⟨rfl, rfl⟩
  intro stocked result after done
  have sound := built.sound stocked
  obtain ⟨later, taken, split, -⟩ := built.reads state stocked result after done
  rw [done] at sound
  obtain ⟨⟨place, none⟩, -⟩ := sound
  exact ⟨later, taken, split, place, by rw [none]; exact List.nil_sublist _⟩

theorem reads_namedStatement (first : Token) (name : String) (next : TokenKind) :
    Reads (namedStatement first name next) (Stands first.location) := by
  unfold namedStatement
  split
  · exact reads_label first name
  · exact reads_instruction first name

/-- A line has its statement, if it has one, at its first token. -/
theorem reads_statement? :
    Reads statement? fun found taken ↦
      ∀ line ∈ found, Placed (line.toList.flatMap Statement.places) taken := by
  intro state
  refine .current (.following ?_)
  have whole {rest : Parser Statement} (plain : state.current.kind.isFinal = false)
      (stands : Reads rest (Stands state.current.location)) :
      ReadsAt state (do
        advance
        return some (some (← rest))) fun found taken ↦
          ∀ line ∈ found, Placed (line.toList.flatMap Statement.places) taken := by
    refine .advance plain fun later ↦ (stands later).bind fun statement taken stands last ↦ .pure ?_
    rintro _ ⟨⟩
    rw [List.append_nil, Option.toList_some, List.flatMap_singleton]
    exact stands.places
  cases kind : state.current.kind with
  | endOfInput => exact .pure nofun
  | newline =>
    refine .advance (by rw [kind]; rfl) fun later ↦ .pure ?_
    rintro _ ⟨⟩
    exact List.nil_sublist _
  | dot => exact whole (by rw [kind]; rfl) (reads_directive _)
  | identifier name => exact whole (by rw [kind]; rfl) (reads_namedStatement _ _ _)
  | _ => exact .refuse

theorem reads_program (file : String) :
    Reads (program file) fun found taken ↦ Placed (found.2.flatMap Statement.places) taken := by
  intro state
  have made : Built anywhere (allocate ⟨file, 1, 1⟩) fun _ ↦ True := .allocate trivial
  refine (made.reads state).bind fun root front _ later ↦ ?_
  have lines : Reads (many statement? statement?_consumes) fun lines taken ↦
      Placed ((lines.filterMap id).flatMap Statement.places) taken := by
    refine .many reads_statement? (fun _ ↦ List.nil_sublist _) ?_
    intro line rest taken others here behind
    have split : (line :: rest).filterMap id = line.toList ++ rest.filterMap id := by
      cases line <;> rfl
    rw [split, List.flatMap_append]
    exact here.append behind
  refine (lines later).bind fun found taken placed last ↦ .pure ?_
  rw [List.append_nil]
  exact placed.widen front

end Grammar

/-- The statements of a program stand in the order of the source, each in front of its operands. -/
theorem Program.places_ordered {source file : String} {capacity : Int} {program : Program}
    (read : Program.parse source file capacity = .ok program) :
    (program.statements.flatMap Statement.places).Pairwise Location.Before := by
  obtain ⟨after, ran, -⟩ := exists_run_of_parse read
  have stocked : Parser.Stocked Parser.anywhere
      ⟨(Cursor.start source 1).tokens file, ⟨capacity, 0⟩⟩ :=
    .tokens (fun _ _ ↦ trivial) fun _ _ ↦ trivial
  obtain ⟨-, taken, split, placed⟩ := Grammar.reads_program file _ stocked _ _ ran
  have ordered := Cursor.tokens_ordered file (Cursor.start source 1)
  change (Cursor.start source 1).tokens file = taken ++ after.tokens at split
  rw [split] at ordered
  have front := (List.pairwise_append.mp ordered).1
  exact (List.pairwise_map.mpr front).sublist placed

end MiniA64
