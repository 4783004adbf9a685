import MiniA64.Proofs.Assembly.Metering
import MiniA64.Proofs.Assembly.Mirroring

/-!
# Parsing while reading comes to an end

Each part of the grammar mirrors its counterpart that has the list of the tokens. The loops over
operands and statements have nothing but the tokens to end them, and the recursion over the labels
of a line is taken apart into rounds of the loop over the statements, each with less room for calls.
With the number of tokens that are left the loops follow the repetitions, so that a whole program is
read to its end or refused just as the parser with the list does it, or the parser stops at a limit
that its source exceeds.
-/

namespace MiniA64

namespace Pull

variable {task : Task} {listed : ParserState} {state : PullState}

/-! ## The grammar -/

variable {here : ParserState → Prop}

theorem mirrors_accept {kind : TokenKind} (plain : kind.isFinal = false) :
    Mirrors task here (Parser.accept kind) (accept kind) := by
  refine .current fun token _ ↦ .ite (fun same ↦ ?_) fun _ ↦ .pure _
  exact .bind (.advance_at same plain) fun _ ↦ .pure _

theorem mirrors_expect {kind : TokenKind} (plain : kind.isFinal = false) (error : GrammarError) :
    Mirrors task here (Parser.expect kind error) (expect kind error) :=
  .current fun _ _ ↦ .ite (fun same ↦ .advance_at same plain) fun _ ↦
    .refuse fun _ at_ ↦ .inl at_.2

theorem mirrors_identifier (error : GrammarError) :
    Mirrors task here (Parser.identifier error) (identifier error) := by
  refine .current fun token _ ↦ ?_
  cases kind : token.kind with
  | identifier name =>
    exact .bind (.advance_at kind rfl) fun _ ↦ .pure _
  | _ => exact .refuse fun _ at_ ↦ .inl at_.2

/-- Only a name is read as one. -/
theorem kind_of_identifier {error : GrammarError} {after : ParserState} {name : String}
    (read : Parser.identifier error listed = .ok (name, after)) :
    listed.current.kind = .identifier name := by
  obtain ⟨token, between, looked, taken⟩ := Parser.bind_eq_ok read
  cases looked
  cases kind : listed.current.kind <;> rw [kind] at taken <;> cases taken
  rfl

theorem mirrors_number (error : GrammarError) :
    Mirrors task here (Parser.number error) (number error) := by
  refine .current fun token _ ↦ ?_
  cases kind : token.kind with
  | number value =>
    exact .bind (.advance_at kind rfl) fun _ ↦ .pure _
  | _ => exact .refuse fun _ at_ ↦ .inl at_.2

theorem mirrors_signedNumber (error : GrammarError) :
    Mirrors task here (Parser.signedNumber error) (signedNumber error) :=
  .bind (mirrors_accept rfl) fun _ ↦ .bind (mirrors_number _) fun _ ↦ .pure _

/-- Looking a name up stops at a limit at most. -/
theorem registerNamed_cases {token : Token} {name : String} (scanned : token ∈ task.tokens)
    (kind : token.kind = .identifier name) :
    registerNamed name = pure (RegisterName.parse? name) ∨
      ∃ limit, task.Exceeds limit ∧ registerNamed name = stop limit := by
  have ascii : ∀ c ∈ name.toList, c.toNat < 128 := by
    obtain ⟨text, shape⟩ := Trial.exists_scan_of_mem token scanned
    intro c there
    rw [Lexeme.name_of_scan (shape.symm.trans kind), String.toList_ofList] at there
    exact Lexeme.lt_of_mem_nameOf there
  have spelled : task.source.toList.extract token.start token.stop = name.toList := by
    have faithful := (Cursor.tracks_start task.source 1).faithful task.file token scanned
    have covers := faithful.spelled
    rwa [kind] at covers
  unfold registerNamed
  obtain read | ⟨count, long, lapsed⟩ := Trial.registerNamed_cases ascii
  · rw [read]
    exact .inl rfl
  · rw [lapsed]
    exact .inr ⟨.digits count, ⟨token, scanned, spelled ▸ long⟩, rfl⟩

/-- A number after one token and a hash sign. -/
theorem mirrors_hashed {α : Type} (form : Int → α) (error : GrammarError)
    (going : ∀ listed, here listed →
      listed.current.kind.isFinal = false ∧ listed.following = .hash) :
    Mirrors task here
      (do
        Parser.advance
        Parser.advance
        return form (← Parser.signedNumber error))
      (do
        advance
        advance
        return form (← signedNumber error)) := by
  refine .advance_to going (.bind (.advance fun listed at_ ↦ ?_) fun _ ↦ ?_)
  · rw [at_]
    rfl
  · exact .bind (mirrors_signedNumber _) fun _ ↦ .pure _

theorem mirrors_register (error : GrammarError) :
    Mirrors task here (Grammar.register error) (register error) := by
  refine .current fun token scanned ↦ ?_
  cases kind : token.kind with
  | identifier name =>
    dsimp only
    obtain read | ⟨limit, exceeds, stops⟩ := registerNamed_cases scanned kind
    · rw [read, pure_bind]
      cases RegisterName.parse? name with
      | none => exact .refuse fun _ at_ ↦ .inl at_.2
      | some register =>
        exact .bind (.advance_at kind rfl) fun _ ↦ .pure _
    · rw [stops]
      exact .stop fun _ _ ↦ exceeds
  | _ => exact .refuse fun _ at_ ↦ .inl at_.2

section

variable {opening : Token} (plain : opening.kind.isFinal = false)
include plain

/-- A token that is no error is refused with the message that the grammar has for it. -/
theorem mirrors_refuse {α : Type} (error : GrammarError) :
    Mirrors task here (Parser.refuse opening error : Parser α) (refuse opening error) :=
  .refuse fun _ _ ↦ .inr plain

theorem mirrors_baseRegister :
    Mirrors task here (Grammar.baseRegister opening) (baseRegister opening) :=
  .bind (mirrors_register _) fun _ ↦ .ite (fun _ ↦ mirrors_refuse plain _) fun _ ↦
    .ite (fun _ ↦ mirrors_refuse plain _) fun _ ↦ .pure _

theorem mirrors_indexRegister :
    Mirrors task here (Grammar.indexRegister opening) (indexRegister opening) :=
  .bind (mirrors_register _) fun _ ↦ .ite (fun _ ↦ mirrors_refuse plain _) fun _ ↦ .pure _

theorem mirrors_displacement :
    Mirrors task here (Grammar.displacement opening) (displacement opening) := by
  refine .bind (mirrors_accept rfl) fun _ ↦ .ite (fun _ ↦ ?_) fun _ ↦ .pure _
  refine .bind (mirrors_accept rfl) fun _ ↦ .ite (fun _ ↦ ?_) fun _ ↦ .current fun token _ ↦ ?_
  · exact .bind (mirrors_signedNumber _) fun _ ↦ .pure _
  · cases token.kind with
    | identifier name => exact .bind (mirrors_indexRegister plain) fun _ ↦ .pure _
    | _ => exact .bind (mirrors_signedNumber _) fun _ ↦ .pure _

theorem mirrors_preIndexed (form : MemoryForm) :
    Mirrors task here (Grammar.preIndexed opening form) (preIndexed opening form) := by
  refine .bind (mirrors_accept rfl) fun _ ↦ .ite (fun _ ↦ ?_) fun _ ↦ .pure _
  cases form with
  | offset bytes => exact .pure _
  | _ => exact mirrors_refuse plain _

theorem mirrors_postIndexed (form : MemoryForm) :
    Mirrors task here (Grammar.postIndexed opening form) (postIndexed opening form) := by
  refine .current fun token _ ↦ .following fun next ↦ ?_
  by_cases comma : token.kind = .comma
  · rw [if_pos comma]
    refine .peek (fun listed at_ ↦ ⟨by rw [at_.1.2, comma]; rfl, at_.2⟩) fun ahead same ↦ ?_
    by_cases hash : next = .hash
    · rw [if_pos ⟨comma, hash⟩, if_pos (same.trans hash)]
      match form with
      | .offset 0 =>
        exact mirrors_hashed _ _ fun listed at_ ↦
          ⟨by rw [at_.1.2, comma]; rfl, at_.2.trans hash⟩
      | .offset (.ofNat (_ + 1)) | .offset (.negSucc _) => exact mirrors_refuse plain _
      | .index _ | .preIndex _ | .postIndex _ => exact mirrors_refuse plain _
    · rw [if_neg fun both ↦ hash both.2, if_neg fun there ↦ hash (same.symm.trans there)]
      exact .pure _
  · rw [if_neg comma, if_neg fun both ↦ comma both.1]
    exact .pure _

theorem mirrors_memory :
    Mirrors task here (Grammar.memory opening) (memory opening) :=
  .bind (mirrors_baseRegister plain) fun _ ↦ .bind (mirrors_displacement plain) fun _ ↦
    .bind (mirrors_expect rfl _) fun _ ↦ .bind (mirrors_preIndexed plain _) fun _ ↦
    .bind (mirrors_postIndexed plain _) fun _ ↦ .pure _

end

theorem mirrors_immediateOrSymbol :
    Mirrors task here Grammar.immediateOrSymbol immediateOrSymbol := by
  refine .current fun token _ ↦ ?_
  cases kind : token.kind with
  | identifier name =>
    exact .bind (.advance_at kind rfl) fun _ ↦ .pure _
  | _ => exact .bind (mirrors_signedNumber _) fun _ ↦ .pure _

theorem mirrors_named {name : String}
    (looked : registerNamed name = pure (RegisterName.parse? name) ∨
      ∃ limit, task.Exceeds limit ∧ registerNamed name = stop limit)
    (going : ∀ listed, here listed → listed.current.kind.isFinal = false) :
    Mirrors task here (Grammar.named name) (named name) := by
  unfold Grammar.named named
  obtain read | ⟨limit, exceeds, stops⟩ := looked
  case inr =>
    rw [stops]
    exact .stop fun _ _ ↦ exceeds
  rw [read, pure_bind]
  cases RegisterName.parse? name with
  | some register => exact .bind (.advance going) fun _ ↦ .pure _
  | none =>
    cases ShiftKind.ofName? (Text.lower name) with
    | none => exact .bind (.advance going) fun _ ↦ .pure _
    | some kind =>
      refine .following fun next ↦ .peek (fun listed at_ ↦ ⟨going listed at_.1, at_.2⟩) ?_
      intro ahead same
      by_cases hash : next = .hash
      · rw [if_pos hash, if_pos (same.trans hash)]
        exact mirrors_hashed _ _ fun listed at_ ↦ ⟨going listed at_.1, at_.2.trans hash⟩
      · rw [if_neg hash, if_neg fun there ↦ hash (same.symm.trans there)]
        exact .bind (.advance fun listed at_ ↦ going listed at_.1) fun _ ↦ .pure _

theorem mirrors_operandKind {token : Token} (scanned : token ∈ task.tokens) :
    Mirrors task (fun listed ↦ here listed ∧ listed.current = token)
      (Grammar.operandKind token) (operandKind token) := by
  unfold Grammar.operandKind operandKind
  cases kind : token.kind with
  | leftBracket =>
    refine .bind (.advance_at kind rfl) fun _ ↦ ?_
    exact .bind (mirrors_memory (by rw [kind]; rfl)) fun _ ↦ .pure _
  | hash =>
    exact .bind (.advance_at kind rfl) fun _ ↦
      mirrors_immediateOrSymbol
  | identifier name =>
    exact mirrors_named (registerNamed_cases scanned kind) fun listed at_ ↦ by rw [at_.2, kind]; rfl
  | number | minus => exact .bind (mirrors_signedNumber _) fun _ ↦ .pure _
  | _ => exact .refuse_text scanned fun _ at_ ↦ at_.2

theorem mirrors_operand : Mirrors task here Grammar.operand operand :=
  .current fun _ scanned ↦ .bind (mirrors_operandKind scanned) fun _ ↦
    .bind (.allocate _) fun _ ↦ .pure _

theorem mirrors_argumentKind {token : Token} :
    Mirrors task (fun listed ↦ here listed ∧ listed.current = token)
      (Grammar.argumentKind token) (argumentKind token) := by
  unfold Grammar.argumentKind argumentKind
  cases kind : token.kind with
  | identifier | string =>
    exact .bind (.advance_at kind rfl) fun _ ↦ .pure _
  | dot =>
    refine .bind (.advance_at kind rfl) fun _ ↦ ?_
    exact .bind (mirrors_identifier _) fun _ ↦ .pure _
  | hash =>
    refine .bind (.advance_at kind rfl) fun _ ↦ ?_
    exact .bind (mirrors_signedNumber _) fun _ ↦ .pure _
  | _ => exact .bind (mirrors_signedNumber _) fun _ ↦ .pure _

theorem mirrors_argument : Mirrors task here Grammar.argument argument :=
  .current fun _ _ ↦ .bind mirrors_argumentKind fun _ ↦ .bind (.allocate _) fun _ ↦ .pure _

/-- One round of the repetition. -/
theorem many_afterComma_eq {item : Parser Operand} (shrinks : Parser.Shrinks item) :
    Parser.many (Parser.afterComma item) (Parser.afterComma_consumes shrinks) = ((do
      let token ← Parser.current
      if token.kind = .comma then
        Parser.advance
        let next ← item
        let rest ← Parser.many (Parser.afterComma item) (Parser.afterComma_consumes shrinks)
        return next :: rest
      else return []) : Parser (List Operand)) := by
  refine (Parser.many_eq ..).trans ?_
  generalize Parser.many (Parser.afterComma item) (Parser.afterComma_consumes shrinks) = loop
  rw [Parser.afterComma, bind_assoc]
  refine bind_congr fun token ↦ ?_
  split
  · simp only [bind_assoc, pure_bind]
  · rw [pure_bind]

/-- One round of the loop. -/
theorem afterCommas_eq (item : Pull Operand) :
    afterCommas item = (do
      let token ← current
      if token.kind = .comma then
        advance
        let next ← item
        let rest ← afterCommas item
        return next :: rest
      else return []) := by
  conv => lhs; rw [afterCommas, accept, bind_assoc]
  refine bind_congr fun token ↦ ?_
  split
  · simp only [bind_assoc, pure_bind, if_true]
  · rw [pure_bind]
    rfl

/-- The loop over commas follows the repetition, which has fewer tokens with each of them. -/
theorem mirrors_afterCommas {item : Parser Operand} {pulled : Pull Operand}
    (shrinks : Parser.Shrinks item)
    (mirrors : ∀ here, Mirrors task here item pulled) :
    Mirrors task here
      (Parser.many (Parser.afterComma item) (Parser.afterComma_consumes shrinks))
      (afterCommas pulled) := by
  refine .of_length fun length ↦ ?_
  induction length using Nat.strongRecOn with
  | ind length ih =>
    rw [many_afterComma_eq shrinks, afterCommas_eq]
    refine .current fun token _ ↦ .ite (fun comma ↦ ?_) fun _ ↦ .pure _
    refine .advance_below (fun listed at_ ↦ ⟨by rw [at_.2, comma]; rfl, at_.1⟩) ?_
    exact .bind_below shrinks (mirrors _) fun _ ↦ .bind (.below ih) fun _ ↦ .pure _

theorem mirrors_operandList {item : Parser Operand} {pulled : Pull Operand}
    (shrinks : Parser.Shrinks item)
    (mirrors : ∀ here, Mirrors task here item pulled) :
    Mirrors task here (Grammar.operandList item shrinks) (operandList pulled) := by
  refine .current fun token _ ↦ ?_
  cases token.kind with
  | newline | endOfInput => exact .pure _
  | _ =>
    exact .bind (mirrors _) fun _ ↦ .bind (mirrors_afterCommas shrinks mirrors) fun _ ↦ .pure _

theorem mirrors_endOfStatement :
    Mirrors task here Grammar.endOfStatement endOfStatement := by
  refine .current fun token scanned ↦ ?_
  cases kind : token.kind with
  | newline => exact .advance_at kind rfl
  | endOfInput => exact .pure _
  | _ => exact .refuse_text scanned fun _ at_ ↦ at_.2

/-! ## Statements -/

/-- An instruction with the end of its line. -/
theorem mirrors_instruction {first : Token} (plain : first.kind.isFinal = false)
    (spelling : String) :
    Mirrors task here (Grammar.instruction first spelling) (do
      let found ← instruction first spelling
      endOfStatement
      return found) := by
  unfold Grammar.instruction instruction
  cases Mnemonic.ofSpelling? spelling with
  | none => exact mirrors_refuse plain _
  | some mnemonic =>
    simp only [bind_assoc, pure_bind]
    exact .bind (mirrors_operandList _ fun _ ↦ mirrors_operand) fun _ ↦
      .bind (.allocate _) fun _ ↦ .bind mirrors_endOfStatement fun _ ↦ .pure _

theorem mirrors_directiveName :
    Mirrors task here Grammar.directiveName directiveName := by
  refine .current fun token _ ↦ ?_
  refine .bind_of (fun _ _ ↦ token.kind.isFinal = false) (mirrors_identifier _) ?_
    fun spelling ↦ ?_
  · rintro listed name after ⟨-, rfl⟩ read
    rw [kind_of_identifier read]
    rfl
  · cases Directive.ofSpelling? spelling with
    | some name => exact .pure _
    | none => exact .refuse fun _ plain ↦ .inr plain

/-- A directive with the end of its line. -/
theorem mirrors_directive (dot : Token) :
    Mirrors task here (Grammar.directive dot) (do
      let found ← directive dot
      endOfStatement
      return found) := by
  unfold Grammar.directive directive
  simp only [bind_assoc, pure_bind]
  exact .bind mirrors_directiveName fun _ ↦
    .bind (mirrors_operandList _ fun _ ↦ mirrors_argument) fun _ ↦
    .bind (.allocate _) fun _ ↦ .bind mirrors_endOfStatement fun _ ↦ .pure _

section

variable {α : Type}

theorem current_bind (next : Token → Pull α) (state : PullState) :
    (current >>= next) state = next state.current state :=
  rfl

theorem accept_bind (kind : TokenKind) (next : Bool → Pull α) (state : PullState) :
    (accept kind >>= next) state =
      (if state.current.kind = kind then advance >>= fun _ ↦ next true else next false) state := by
  rw [accept, bind_assoc, current_bind]
  split
  · rw [bind_assoc]
    rfl
  · rfl

/-- Steps that do the same here go on in the same way. -/
theorem bind_congr_at {β : Type} {first second : Pull α} (same : first state = second state)
    (next : α → Pull β) : (first >>= next) state = (second >>= next) state := by
  show (first state >>= fun pair ↦
    (ExceptT.bindCont next pair.1 : StateT PullState Option _) pair.2) = _
  rw [same]
  rfl

theorem refuse_bind {β : Type} (token : Token) (error : GrammarError) (next : α → Pull β) :
    (refuse token error : Pull α) >>= next = refuse token error := rfl

theorem stop_bind {β : Type} (limit : Limit) (next : α → Pull β) :
    (stop limit : Pull α) >>= next = stop limit := rfl

theorem endOfStatement_newline (line : state.current.kind = .newline) (next : Unit → Pull α) :
    (endOfStatement >>= next) state = (advance >>= next) state := by
  rw [endOfStatement, bind_assoc, current_bind, line]

theorem endOfStatement_ended (ended : state.current.kind = .endOfInput) (next : Unit → Pull α) :
    (endOfStatement >>= next) state = next () state := by
  rw [endOfStatement, bind_assoc, current_bind, ended]
  rfl

end

/-- One round of the loop over the lines. -/
theorem statements_round (depth : Nat) :
    statements depth = (do
      if (← current).kind = .endOfInput then return []
      else if ← accept .newline then statements depth
      else
        let here ← labelled unlabelled depth
        endOfStatement
        let rest ← statements depth
        return here ++ rest) := by
  conv => lhs; rw [statements, lines]
  rfl

theorem statements_newline {depth : Nat} (line : state.current.kind = .newline) :
    statements depth state = (advance >>= fun _ ↦ statements depth) state := by
  conv => lhs; rw [statements_round, current_bind, line, if_neg (by decide), accept_bind, if_pos line]
  rfl

theorem statements_ended {depth : Nat} (ended : state.current.kind = .endOfInput) :
    statements depth state = some (.ok [], state) := by
  rw [statements_round, current_bind, if_pos ended]
  rfl

/-- The rest of a line that may have ended, with room for so many calls, and the lines after it. -/
def onwards (whole depth : Nat) : Pull (List Statement) := do
  let next ← current
  if next.kind = .newline ∨ next.kind = .endOfInput then statements whole
  else
    let here ← labelled unlabelled depth
    endOfStatement
    let rest ← statements whole
    return here ++ rest

/-- Each line begins with all the room there is. -/
theorem statements_eq_onwards (depth : Nat) : statements depth = onwards depth depth := by
  funext state
  rw [onwards, current_bind]
  split
  · rfl
  · rename_i going
    obtain ⟨line, ended⟩ := not_or.mp going
    conv => lhs; rw [statements_round, current_bind, if_neg ended, accept_bind, if_neg line]
    rfl

/-- The statements after a label are those of what is left of its line. -/
theorem after_label_eq (whole depth : Nat) (label : Statement) :
    ((do
      let next ← current
      if next.kind = .newline ∨ next.kind = .endOfInput then return [label]
      else
        let rest ← labelled unlabelled depth
        return label :: rest) >>= fun here ↦ do
      endOfStatement
      let rest ← statements whole
      return here ++ rest) = (do
      let rest ← onwards whole depth
      return label :: rest) := by
  funext state
  rw [onwards, bind_assoc, bind_assoc, current_bind, current_bind]
  split
  · rename_i ends
    rw [pure_bind]
    obtain line | ended := ends
    · rw [endOfStatement_newline line]
      refine Eq.symm ((bind_congr_at (statements_newline line) _).trans ?_)
      exact congrFun (bind_assoc ..) state
    · exact endOfStatement_ended ended _
  · simp only [bind_assoc, pure_bind, List.cons_append]

/-- A statement without a label and what comes after it, by the token that it begins with. -/
theorem unlabelled_bind {α : Type} (next : List Statement → Pull α) (state : PullState) :
    ((do return [← unlabelled]) >>= next) state = (match state.current.kind with
      | .dot => do
        advance
        let found ← directive state.current
        next [found]
      | .identifier name => do
        advance
        let found ← instruction state.current name
        next [found]
      | _ => do refuse state.current (.statementStart (← text state.current))) state := by
  rw [unlabelled, bind_assoc, bind_assoc, current_bind]
  cases state.current.kind <;> simp only [bind_assoc, pure_bind, refuse_bind]

/-- Where there is no room for another call the line has to have ended. -/
theorem onwards_zero (whole : Nat) :
    onwards whole 0 = (do
      let first ← current
      match first.kind with
      | .endOfInput => return []
      | .newline =>
        advance
        statements whole
      | _ => stop .nesting) := by
  funext state
  rw [onwards, current_bind, current_bind]
  by_cases line : state.current.kind = .newline
  · rw [if_pos (.inl line), line]
    exact statements_newline line
  by_cases ended : state.current.kind = .endOfInput
  · rw [if_pos (.inr ended), ended]
    exact statements_ended ended
  rw [if_neg (not_or.mpr ⟨line, ended⟩), labelled, stop_bind]
  cases kind : state.current.kind with
  | newline => exact absurd kind line
  | endOfInput => exact absurd kind ended
  | _ => rfl

/-- The token after the current one is looked at from where the parser stands. -/
theorem exists_peek (state : PullState) :
    ∃ outcome after, peek state = some (outcome, after) ∧ after.current = state.current := by
  rw [peek, ofTrial, PullState.peek]
  cases state.reader.peeked with
  | some token => exact ⟨_, state, rfl, rfl⟩
  | none =>
    dsimp only
    obtain scanned | ⟨count, -, lapsed⟩ := scan_cases state
    · rw [scanned]
      exact ⟨_, _, rfl, rfl⟩
    · rw [lapsed]
      exact ⟨_, _, rfl, rfl⟩

/-- One label or statement of a line, with less room for what stands behind a label. -/
theorem onwards_succ (whole depth : Nat) :
    onwards whole (depth + 1) = (do
      let first ← current
      match first.kind with
      | .endOfInput => return []
      | .newline =>
        advance
        statements whole
      | .dot =>
        advance
        let found ← directive first
        endOfStatement
        let rest ← statements whole
        return found :: rest
      | .identifier name =>
        if (← peek).kind = .colon then
          advance
          advance
          let slot ← allocate first.location
          let rest ← onwards whole depth
          return ⟨slot, first.location, .label name⟩ :: rest
        else
          advance
          let found ← instruction first name
          endOfStatement
          let rest ← statements whole
          return found :: rest
      | _ => refuse first (.statementStart (← text first))) := by
  funext state
  conv => lhs; rw [onwards, current_bind]
  rw [current_bind]
  by_cases line : state.current.kind = .newline
  · rw [if_pos (.inl line), line]
    exact statements_newline line
  by_cases ended : state.current.kind = .endOfInput
  · rw [if_pos (.inr ended), ended]
    exact statements_ended ended
  rw [if_neg (not_or.mpr ⟨line, ended⟩), labelled, bind_assoc, current_bind]
  cases kind : state.current.kind with
  | newline => exact absurd kind line
  | endOfInput => exact absurd kind ended
  | identifier name =>
    dsimp only
    rw [bind_assoc]
    obtain ⟨outcome, after, looked, same⟩ := exists_peek state
    rw [run_bind looked, run_bind looked]
    cases outcome with
    | error reason => rfl
    | ok ahead =>
      by_cases colon : ahead.kind = .colon
      · simp only [ExceptT.bindCont, if_pos colon, bind_assoc]
        refine congrFun (bind_congr fun _ ↦ bind_congr fun _ ↦ bind_congr fun slot ↦ ?_) after
        exact after_label_eq whole depth _
      · simp only [ExceptT.bindCont, if_neg colon]
        rw [unlabelled_bind, same, kind]
        rfl
  | dot =>
    dsimp only
    rw [unlabelled_bind, kind]
    rfl
  | _ =>
    dsimp only
    rw [unlabelled_bind, kind]

/-- The statements that the parser with the list has still to read. -/
def listedStatements : Parser (List Statement) := do
  let found ← Parser.many Grammar.statement? Grammar.statement?_consumes
  return found.filterMap id

theorem listedStatements_step :
    listedStatements = Grammar.statement? >>= fun found ↦
      match found with
      | none => pure []
      | some first => listedStatements >>= fun rest ↦ pure (first.toList ++ rest) := by
  conv => lhs; rw [listedStatements, Parser.many_eq, bind_assoc]
  refine bind_congr fun found ↦ ?_
  obtain _ | _ | first := found
  · rfl
  · simp only [listedStatements, bind_assoc, pure_bind]
    rfl
  · simp only [listedStatements, bind_assoc, pure_bind]
    rfl

/-- One round of the repetition. -/
theorem listedStatements_eq :
    listedStatements = (do
      let first ← Parser.current
      let next ← Parser.following
      match first.kind with
      | .endOfInput => return []
      | .newline =>
        Parser.advance
        listedStatements
      | .dot =>
        Parser.advance
        let found ← Grammar.directive first
        let rest ← listedStatements
        return found :: rest
      | .identifier name =>
        Parser.advance
        let found ← Grammar.namedStatement first name next
        let rest ← listedStatements
        return found :: rest
      | _ => Parser.refuse first (.statementStart first.text)) := by
  conv => lhs; rw [listedStatements_step]
  generalize listedStatements = loop
  simp only [Grammar.statement?, bind_assoc]
  refine bind_congr fun first ↦ bind_congr fun next ↦ ?_
  cases first.kind with
  | endOfInput => rfl
  | newline =>
    simp only [bind_assoc, pure_bind, Option.toList_none, List.nil_append, bind_pure]
  | dot | identifier =>
    simp only [bind_assoc, pure_bind, Option.toList_some, List.cons_append, List.nil_append]
  | _ => rfl

theorem namedStatement_eq (first : Token) (name : String) {next : TokenKind}
    (other : next ≠ .colon) :
    Grammar.namedStatement first name next = Grammar.instruction first name := by
  unfold Grammar.namedStatement
  split
  · exact absurd rfl other
  · rfl

section

variable {length : Nat}
  (fewer : Mirrors task (Mirrors.Below length) listedStatements (statements task.depth))
include fewer

/-- A statement with the end of its line, in front of the ones after it. -/
theorem mirrors_line {line : Parser Statement} {pulled : Pull Statement}
    (shrinks : Parser.Shrinks line)
    (mirrors : Mirrors task (Mirrors.Below length) line (do
      let found ← pulled
      endOfStatement
      return found)) :
    Mirrors task (Mirrors.Below length)
      (do
        let found ← line
        let rest ← listedStatements
        return found :: rest)
      (do
        let found ← pulled
        endOfStatement
        let rest ← statements task.depth
        return found :: rest) := by
  have whole : (do
      let found ← pulled
      endOfStatement
      let rest ← statements task.depth
      return found :: rest) = ((do
      let found ← pulled
      endOfStatement
      return found) >>= fun found ↦ do
        let rest ← statements task.depth
        return found :: rest) := by
    simp only [bind_assoc, pure_bind]
  rw [whole]
  exact .bind_below shrinks mirrors fun _ ↦ .bind fewer fun _ ↦ .pure _

end

/-- The tokens stand right behind so many labels of the source. -/
def Task.Behind (task : Task) (count : Nat) (tokens : List Token) : Prop :=
  ∃ labels, Labels count labels ∧ labels ++ tokens <:+ task.tokens

theorem Task.Behind.label {count : Nat} {name colon : Token} {rest : List Token}
    {spelling : String} (behind : task.Behind count (name :: colon :: rest))
    (named : name.kind = .identifier spelling) (ended : colon.kind = .colon) :
    task.Behind (count + 1) rest := by
  obtain ⟨labels, row, suffix⟩ := behind
  refine ⟨labels ++ [name, colon], row.more named ended, ?_⟩
  rwa [List.append_assoc]

/-- A name and a colon are consumed with two steps. -/
theorem tokens_eq_of_label {spelling : String}
    (named : listed.current.kind = .identifier spelling) (colon : listed.following = .colon) :
    ∃ ended, listed.tokens = listed.current :: ended :: listed.advance.advance.tokens ∧
      ended.kind = .colon := by
  obtain ⟨_ | ⟨first, _ | ⟨second, rest⟩⟩, pool⟩ := listed
  · cases named
  · cases colon
  · have begun : (⟨first :: second :: rest, pool⟩ : ParserState).advance = ⟨second :: rest, pool⟩ :=
      if_neg (by rw [named]; exact Bool.false_ne_true)
    have passed : (⟨second :: rest, pool⟩ : ParserState).advance = ⟨rest, pool⟩ := by
      refine if_neg ?_
      show second.kind.isFinal ≠ true
      rw [show second.kind = .colon from colon]
      exact Bool.false_ne_true
    exact ⟨second, by rw [begun, passed]; rfl, colon⟩

theorem tokens_of_allocate {place : Location} {slot : Nat} {after : ParserState}
    (made : Parser.allocate place listed = .ok (slot, after)) : after.tokens = listed.tokens := by
  unfold Parser.allocate at made
  split at made
  · cases made
  · cases made
    rfl

/-- A label, in front of what is left of its line and the statements after it. -/
theorem mirrors_label {length count depth : Nat}
    (shorter : Mirrors task
      (fun listed ↦ listed.tokens.length < length ∧ task.Behind (count + 1) listed.tokens)
      listedStatements (onwards task.depth depth))
    (first : Token) (name : String)
    (going : ∀ listed, here listed → listed.current.kind = .identifier name ∧
      listed.following = .colon ∧ listed.tokens.length = length ∧
      task.Behind count listed.tokens) :
    Mirrors task here
      (do
        Parser.advance
        let found ← Grammar.label first name
        let rest ← listedStatements
        return found :: rest)
      (do
        advance
        advance
        let slot ← allocate first.location
        let rest ← onwards task.depth depth
        return ⟨slot, first.location, .label name⟩ :: rest) := by
  unfold Grammar.label
  simp only [bind_assoc, pure_bind]
  have plain (listed : ParserState) (at_ : here listed) : listed.current.kind.isFinal = false := by
    rw [(going listed at_).1]
    rfl
  refine .bind_of (fun _ after ↦ ∃ listed, here listed ∧ after = listed.advance)
    (.advance plain) (fun listed _ _ at_ advanced ↦ ⟨listed, at_, ?_⟩) fun _ ↦ ?_
  · cases advanced
    rfl
  refine .bind_of
    (fun _ after ↦ after.tokens.length < length ∧ task.Behind (count + 1) after.tokens)
    (.advance ?_) ?_ fun _ ↦ ?_
  · rintro _ ⟨listed, at_, rfl⟩
    rw [ParserState.kind_advance (plain listed at_), (going listed at_).2.1]
    rfl
  · rintro _ _ _ ⟨listed, at_, rfl⟩ ⟨⟩
    obtain ⟨named, colon, rfl, behind⟩ := going listed at_
    obtain ⟨ended, tokens, kind⟩ := tokens_eq_of_label named colon
    rw [tokens] at behind
    refine ⟨?_, behind.label named kind⟩
    rw [tokens, List.length_cons, List.length_cons]
    omega
  refine .bind_of
    (fun _ after ↦ after.tokens.length < length ∧ task.Behind (count + 1) after.tokens)
    (.allocate _) (fun listed _ _ at_ made ↦ ?_) fun _ ↦ .bind shorter fun _ ↦ .pure _
  rwa [tokens_of_allocate made]

/-- After a first token that does not end the list fewer tokens are left. -/
theorem mirrors_after_first {α : Type} {length : Nat} {first : Token} {behind : TokenKind}
    {next : Parser α} {further : Pull α} (plain : first.kind.isFinal = false)
    (fewer : Mirrors task (Mirrors.Below length) next further) :
    Mirrors task (fun listed ↦ ((listed.tokens.length = length ∧ here listed) ∧
      listed.current = first) ∧ listed.following = behind)
      (Parser.advance >>= fun _ ↦ next) (advance >>= fun _ ↦ further) :=
  .advance_below (fun _ at_ ↦ ⟨by rw [at_.1.2, plain], at_.1.1.1⟩) fewer

/-- What is left of a line follows the repetition, which has fewer tokens in each round. -/
theorem mirrors_onwards {count depth length : Nat} (room : count + depth = task.depth) :
    Mirrors task (fun listed ↦ listed.tokens.length = length ∧ task.Behind count listed.tokens)
      listedStatements (onwards task.depth depth) := by
  -- The induction is on the tokens, for the room begins anew with each line.
  induction length using Nat.strongRecOn generalizing count depth with
  | ind length ih =>
    have fewer : Mirrors task (Mirrors.Below length) listedStatements (statements task.depth) := by
      rw [statements_eq_onwards]
      refine .of_suffix fun cursor listed state follows at_ ↦ ?_
      exact ih _ at_.1 (Nat.zero_add _) cursor listed state follows ⟨rfl, [], .none, at_.2⟩
    rw [listedStatements_eq]
    cases depth with
    | zero =>
      rw [onwards_zero]
      refine .current fun first scanned ↦ .following fun next ↦ ?_
      have exceeds (listed : ParserState)
          (at_ : ((listed.tokens.length = length ∧ task.Behind count listed.tokens) ∧
            listed.current = first) ∧ listed.following = next) : task.Exceeds .nesting := by
        obtain ⟨⟨⟨-, labels, row, suffix⟩, -⟩, -⟩ := at_
        refine ⟨labels, ?_, (List.prefix_append ..).isInfix.trans suffix.isInfix⟩
        rwa [← room]
      cases kind : first.kind with
      | endOfInput => exact .pure _
      | newline =>
        exact mirrors_after_first (by rw [kind]; rfl) fewer
      | _ => exact .stop exceeds
    | succ depth =>
      rw [onwards_succ]
      refine .current fun first scanned ↦ .following fun next ↦ ?_
      cases kind : first.kind with
      | endOfInput => exact .pure _
      | newline =>
        exact mirrors_after_first (by rw [kind]; rfl) fewer
      | dot =>
        refine mirrors_after_first (by rw [kind]; rfl) ?_
        exact mirrors_line fewer (Grammar.directive_shrinks first) (mirrors_directive first)
      | identifier name =>
        have plain : first.kind.isFinal = false := by rw [kind]; rfl
        refine .peek (fun listed at_ ↦ ⟨by rw [at_.1.2, plain], at_.2⟩) fun ahead same ↦ ?_
        by_cases colon : next = .colon
        · rw [if_pos (same.trans colon), colon]
          refine mirrors_label ?_ first name fun listed at_ ↦
            ⟨by rw [at_.1.2, kind], at_.2, at_.1.1⟩
          intro cursor listed state follows at_
          exact ih _ at_.1 ((Nat.succ_add_eq_add_succ ..).trans room) cursor listed state follows
            ⟨rfl, at_.2⟩
        · rw [if_neg fun there ↦ colon (same.symm.trans there)]
          dsimp only
          rw [namedStatement_eq _ _ colon]
          refine mirrors_after_first plain ?_
          exact mirrors_line fewer (Grammar.instruction_shrinks first name)
            (mirrors_instruction plain name)
      | _ => exact .refuse_text scanned fun _ at_ ↦ at_.1.2

/-- The loop over the statements follows the repetition. -/
theorem mirrors_statements : Mirrors task here listedStatements (statements task.depth) := by
  rw [statements_eq_onwards]
  refine .of_suffix fun cursor listed state follows at_ ↦ ?_
  exact mirrors_onwards (Nat.zero_add _) cursor listed state follows ⟨rfl, [], .none, at_.2⟩

/-! ## Whole programs -/

/-- The tree of a program, once its first token has been taken. -/
def tree (depth : Nat) (file : String) : Pull (Nat × List Statement) := do
  let root ← allocate ⟨file, 1, 1⟩
  let found ← statements depth
  return (root, found)

/-- The program of a tree, which knows how many nodes have been made for it. -/
def ofTree (source file : String) (found : Nat × List Statement) : Pull Program := do
  let state ← get
  return ⟨source, file, found.1, found.2, state.pool.used⟩

theorem mirrors_tree (file : String) :
    Mirrors task here (Grammar.program file) (tree task.depth file) := by
  have listing : Grammar.program file = (do
      let root ← Parser.allocate ⟨file, 1, 1⟩
      let found ← listedStatements
      return (root, found)) := by
    simp only [Grammar.program, listedStatements, bind_assoc, pure_bind]
  rw [listing]
  exact .bind (.allocate _) fun _ ↦ .bind mirrors_statements fun _ ↦ .pure _

namespace Task

/-- In front of the first token of the source. -/
def start (task : Task) : Cursor := .start task.source 1

/-- The parser that reads the source, and has not begun to. -/
def unread (task : Task) : PullState := .new task.source task.file task.capacity

/-- The parser that has all tokens of the source. -/
def scanned (task : Task) : ParserState := ⟨task.tokens, ⟨task.capacity, 0⟩⟩

/-- The first token has the whole source in front of it. -/
theorem begin_cases (task : Task) :
    (∃ after, begin task.unread = some (.ok (), after) ∧
      Follows task task.start task.scanned after) ∨
    ∃ count, task.Exceeds (.digits count) ∧
      begin task.unread =
        some (.error (.raised (.lapse (.limit (.digits count)))), task.unread) := by
  have stands : task.unread.reader.StandsAt task.start := .plain ..
  have tracks := Cursor.tracks_start task.source 1
  rw [begin, ofTrial, PullState.begin]
  obtain ⟨reader, scanned, taken, named, stands, plain, scans⟩ | ⟨count, stops, lapsed⟩ :=
    next_cases stands
  · refine .inl ⟨_, by rw [taken]; rfl, {
      tokens := rfl
      suffix := List.suffix_rfl
      pool := rfl
      capacity := rfl
      current := rfl
      named
      reader := stands
      last := fun _ ↦ plain
      tracks
      scanned := ?_
      room := ?_
      consumed := List.forall_mem_nil _ }⟩
    · rw [plain]
      exact scans
    · exact Nat.le_of_eq ((Nat.zero_add _).trans String.length_toList)
  · refine .inr ⟨_, exceeds_of_stopsAt tracks ?_ stops, by rw [lapsed]; rfl⟩
    exact task.start.next_mem_tokens task.file

/-- Parses the source of a task. -/
def parse (task : Task) : Option (Except Refusal Program × PullState) :=
  Pull.parse task.depth task.source task.file task.capacity

/-- A program is the tree that follows its first token. -/
theorem parse_eq (task : Task) : task.parse = (begin >>= fun _ ↦
    tree task.depth task.file >>= ofTree task.source task.file) task.unread := by
  have split : program task.depth task.source task.file = begin >>= fun _ ↦
      tree task.depth task.file >>= ofTree task.source task.file := by
    simp only [program, tree, ofTree, bind_assoc, pure_bind]
  exact congrFun split _

/-- Parsing either stops at the first token already, at a limit that the source exceeds, or it comes
to an end where the parser that has all tokens does. -/
theorem parse_cases (task : Task) :
    (∃ limit, task.Exceeds limit ∧
      task.parse = some (.error (.raised (.lapse (.limit limit))), task.unread)) ∨
    ∃ outcome last, Settles task (Grammar.program task.file task.scanned) outcome last ∧
      task.parse = some (outcome.map fun found ↦
        ⟨task.source, task.file, found.1, found.2, last.pool.used⟩, last) := by
  have mirrors : Mirrors task (fun _ ↦ True) _ _ := mirrors_tree task.file
  rw [parse_eq]
  obtain ⟨begun, begins, follows⟩ | ⟨count, exceeds, lapsed⟩ := task.begin_cases
  · obtain ⟨outcome, last, ended, settles⟩ :=
      mirrors _ _ _ follows trivial
    refine .inr ⟨outcome, last, settles, ?_⟩
    rw [run_bind begins]
    refine (run_bind ended).trans ?_
    cases outcome <;> rfl
  · exact .inl ⟨_, exceeds, run_bind lapsed⟩

end Task

/-- What an answer has to do with the one of the parser that has all the tokens. Without one the
source exceeds a limit. -/
def Answers (task : Task) (last : PullState) : Except Refusal Program → Prop
  | .ok program => Program.parse task.source task.file task.capacity = .ok program
  | .error (.grammar token error) =>
    Program.parse task.source task.file task.capacity =
        .error (((AssemblyError.grammar error).locatedAt token.location).locate task.source) ∧
      ∀ problem, token.kind = .error problem →
        token = last.current ∧ error.message = problem.message
  | .error (.noNode limit location) =>
    Program.parse task.source task.file task.capacity =
        .error ((AssemblyError.nodePoolExhausted limit).locatedAt location) ∧
      Text.PrintableNumber limit
  | .error (.raised reason) => ∃ limit, reason = .lapse (.limit limit) ∧ task.Exceeds limit

theorem Settles.follows {α : Type} {result : Except Diagnostic (α × ParserState)}
    {outcome : Except Refusal α} {last : PullState} (settles : Settles task result outcome last) :
    ∃ cursor listed, Follows task cursor listed last := by
  cases settles with
  | done follows | refused follows | full follows | stopped follows => exact ⟨_, _, follows⟩

theorem Settles.answers {outcome : Except Refusal (Nat × List Statement)} {last : PullState}
    (settles : Settles task (Grammar.program task.file task.scanned) outcome last) :
    Answers task last (outcome.map fun found ↦
      ⟨task.source, task.file, found.1, found.2, last.pool.used⟩) := by
  generalize listing : Grammar.program task.file task.scanned = result at settles
  rw [Task.scanned, Task.tokens] at listing
  cases settles with
  | done follows => rw [Except.map, Answers, Program.parse, StateT.run, listing, follows.pool]
  | refused follows lexical =>
    refine ⟨?_, fun problem kind ↦ ?_⟩
    · rw [Program.parse, StateT.run, listing]
      rfl
    · obtain ⟨here, rfl⟩ := lexical problem kind
      exact ⟨here, rfl⟩
  | full follows printable =>
    refine ⟨?_, printable⟩
    rw [Program.parse, StateT.run, listing]
    rfl
  | stopped follows exceeds => exact ⟨_, rfl, exceeds⟩

/-- The token behind the current one is not scanned. -/
theorem advance_of_lapse {reason : Lapse} (going : state.current.kind ≠ .endOfInput)
    (ahead : state.reader.peeked = none)
    (lapsed : Trial.scan state.reader.cursor.skipTrivia.rest = .error (.lapse reason)) :
    advance state = some (.error (.raised (.lapse reason)), state) := by
  rw [advance, ofTrial, PullState.advance, if_neg going, PullState.next, ahead, PullState.scan]
  dsimp only
  rw [lapsed]
  rfl

theorem bind_of_error {α β : Type} (first : Pull α) {further : α → Pull β}
    {reason : Refusal} (given : (first state).map Prod.fst = some (.error reason)) :
    ((first >>= further) state).map Prod.fst = some (.error reason) := by
  obtain ⟨⟨_, last⟩, ended, rfl⟩ := Option.map_eq_some_iff.mp given
  rw [run_bind ended]
  rfl

/-- Parsing comes to an end, with a program, a syntax error, a full pool or a limit that the source
exceeds, and has then scanned at most one token more than the source has characters. Neither an error
nor the end of the input is consumed, and where an error is refused, it is the current token and the
message is its own. -/
theorem parse_ends (task : Task) :
    ∃ outcome last, task.parse = some (outcome, last) ∧
      last.scanned ≤ task.source.length + 1 ∧
      (∀ token ∈ last.consumed, token.kind.isFinal = false) ∧
      Answers task last outcome := by
  obtain ⟨limit, exceeds, stopped⟩ | ⟨outcome, last, settles, ended⟩ := task.parse_cases
  · exact ⟨_, _, stopped, Nat.zero_le _, List.forall_mem_nil _, limit, rfl, exceeds⟩
  · obtain ⟨cursor, listed, follows⟩ := settles.follows
    exact ⟨_, last, ended, follows.scanned_le, follows.consumed, settles.answers⟩

/-- A number with too many digits is not read, though it is one. -/
theorem parse_long_number :
    (⟨".word " ++ String.ofList (List.replicate 4301 '0'), "<input>", 4096, 950⟩ :
      Task).parse.map Prod.fst = some (.error (.raised (.lapse (.limit (.digits 4301))))) := by
  obtain ⟨digits, text, scanned⟩ : ∃ digits, List.replicate 4301 '0' = '0' :: '0' :: digits ∧
      Trial.scan ('0' :: '0' :: digits) = Trial.lapse (.limit (.digits 4301)) := by
    have all : ∀ c ∈ List.replicate 4299 '0', Lexeme.isAsciiDigit c = true := by
      intro c zero
      rw [List.eq_of_mem_replicate zero]
      decide
    refine ⟨List.replicate 4299 '0', by rw [List.replicate_succ, List.replicate_succ], ?_⟩
    rw [Trial.scan_of_long all, List.length_replicate]
    rw [List.length_replicate]
    decide
  have source : (".word " ++ String.ofList (List.replicate 4301 '0')).toList =
      '.' :: 'w' :: 'o' :: 'r' :: 'd' :: ' ' :: '0' :: '0' :: digits := by
    rw [String.toList_append, String.toList_ofList, text]
    simp
  rw [Task.parse_eq, Task.unread, PullState.new, TokenReader.new, Cursor.start, source]
  rw [run_bind (show begin _ = some (.ok (), _) from rfl)]
  refine bind_of_error (tree 950 "<input>") ?_
  rw [tree, run_bind (show allocate _ _ = some (.ok _, _) from rfl)]
  refine bind_of_error (statements 950) ?_
  rw [statements_eq_onwards, onwards_succ, current_bind]
  dsimp only
  rw [run_bind (show advance _ = some (.ok _, _) from rfl)]
  refine bind_of_error (directive _) ?_
  refine bind_of_error directiveName ?_
  rw [directiveName, current_bind]
  refine bind_of_error (identifier _) ?_
  rw [identifier, current_bind]
  dsimp only
  refine bind_of_error advance ?_
  refine Option.map_eq_some_iff.mpr ⟨_, advance_of_lapse ?_ rfl scanned, rfl⟩
  exact fun same ↦ TokenKind.noConfusion same

end Pull

end MiniA64
