import MiniA64.Assembly.Arena
import MiniA64.Proofs.Assembly.Derivations
import MiniA64.Proofs.Assembly.Pulling

/-!
# The arena that a parser fills

The parser that stores nodes goes along with the one that only counts them: it takes the same tokens
and is refused with the same diagnostics, and where the one has made a part of the tree, the other
one has stored its nodes behind those that were there, under the numbers of the tree. So the arena
of a program is known from its tree.
-/

namespace MiniA64

/-! ## The nodes of a tree -/

def Operand.arenaNode (operand : Operand) : Arena.Node := ⟨operand.location, .operand operand.kind⟩

/-- What the node of a statement holds. -/
def StatementKind.content : StatementKind → Arena.Content
  | label name => .label name
  | instruction mnemonic spelling operands =>
    .instruction mnemonic spelling (operands.map (·.slot))
  | directive name arguments => .directive name (arguments.map (·.slot))

namespace Statement

def arenaNode (statement : Statement) : Arena.Node := ⟨statement.location, statement.kind.content⟩

/-- The nodes of a statement, which is stored behind its operands. -/
def arenaNodes (statement : Statement) : List Arena.Node :=
  statement.kind.operands.map Operand.arenaNode ++ [statement.arenaNode]

/-- The numbers of the nodes of a statement. -/
def slots (statement : Statement) : List Nat :=
  statement.kind.operands.map (·.slot) ++ [statement.slot]

end Statement

/-- The nodes of a program, with its own in front. -/
def Program.arena (program : Program) (capacity : Int) : Arena where
  capacity := capacity
  nodes := ⟨⟨program.file, 1, 1⟩, .program (program.statements.map (·.slot))⟩ ::
    program.statements.flatMap Statement.arenaNodes

/-! ## Parsers that make no node -/

namespace Parser

/-- The parser makes no node. -/
def Idle {α : Type} (parser : Parser α) : Prop :=
  ∀ state result after, parser state = .ok (result, after) → after.pool = state.pool

theorem Plain.idle {α : Type} {parser : Parser α} (plain : Plain parser) : Idle parser := by
  induction plain with
  | bind _ _ ih₁ ih₂ =>
    intro state result after h
    obtain ⟨item, between, begun, ended⟩ := bind_eq_ok h
    exact (ih₂ _ _ _ _ ended).trans (ih₁ _ _ _ begun)
  | advance =>
    intro state result after h
    cases h
    unfold ParserState.advance
    split <;> rfl
  | pure | current | following =>
    intro state result after h
    cases h
    rfl
  | refuse => exact fun state result after h ↦ nomatch h

end Parser

namespace Grammar

open MiniA64.Parser

/-- An instruction after its mnemonic, without the end of its line. -/
def unendedInstruction (first : Token) (spelling : String) : Parser Statement := do
  match Mnemonic.ofSpelling? spelling with
  | none => refuse first (.unknownMnemonic spelling)
  | some mnemonic =>
    let operands ← operandList operand operand_shrinks
    let slot ← allocate first.location
    return ⟨slot, first.location, .instruction mnemonic spelling operands⟩

/-- A directive after its dot, without the end of its line. -/
def unendedDirective (dot : Token) : Parser Statement := do
  let name ← directiveName
  let arguments ← operandList argument argument_shrinks
  let slot ← allocate dot.location
  return ⟨slot, dot.location, .directive name arguments⟩

theorem unendedInstruction_shrinks (first : Token) (spelling : String) :
    Shrinks (unendedInstruction first spelling) := by
  unfold unendedInstruction
  split
  · exact .refuse _ _
  · exact .bind (operandList_shrinks _ _) fun _ ↦ .bind (.allocate _) fun _ ↦ .pure _

theorem unendedDirective_shrinks (dot : Token) : Shrinks (unendedDirective dot) :=
  .bind directiveName_plain.shrinks fun _ ↦ .bind (operandList_shrinks _ _) fun _ ↦
    .bind (.allocate _) fun _ ↦ .pure _

theorem instruction_eq (first : Token) (spelling : String) :
    instruction first spelling = (do
      let found ← unendedInstruction first spelling
      endOfStatement
      return found) := by
  unfold instruction unendedInstruction
  cases Mnemonic.ofSpelling? spelling with
  | none => rfl
  | some mnemonic => simp only [bind_assoc, pure_bind]

theorem directive_eq (dot : Token) :
    directive dot = (do
      let found ← unendedDirective dot
      endOfStatement
      return found) := by
  unfold directive unendedDirective
  simp only [bind_assoc, pure_bind]

end Grammar

namespace Arena

variable {α β γ δ : Type} {state : State}

/-- The state behind more tokens, with more nodes stored. -/
def State.grown (state : State) (tokens : List Token) (nodes : List Node) : State :=
  ⟨tokens, { state.arena with nodes := state.arena.nodes ++ nodes }⟩

@[simp] theorem State.grown_nil (state : State) : state.grown state.tokens [] = state := by
  rw [grown, List.append_nil]

@[simp] theorem State.length_grown (state : State) (tokens : List Token) (nodes : List Node) :
    (state.grown tokens nodes).arena.nodes.length = state.arena.nodes.length + nodes.length :=
  List.length_append

theorem State.grown_grown (state : State) (tokens rest : List Token) (nodes more : List Node) :
    (state.grown tokens nodes).grown rest more = state.grown rest (nodes ++ more) := by
  simp only [grown, List.append_assoc]

/-- How the parser that counts ends, and how the one that stores nodes does. -/
inductive Settles (state : State) (fits : α → β → List Node → Prop) :
    Except Diagnostic (α × ParserState) → Option (Except Diagnostic (β × State)) → Prop
  | done {made : α} {handle : β} {tokens : List Token} {nodes : List Node}
    (holds : fits made handle nodes) :
    Settles state fits (.ok (made, (state.grown tokens nodes).counted))
      (some (.ok (handle, state.grown tokens nodes)))
  | refused (diagnostic : Diagnostic) :
    Settles state fits (.error diagnostic) (some (.error diagnostic))

/-- From a state on, the second parser does what the first one does. -/
def GrowsAt (state : State) (parser : Parser α) (growth : Growth β)
    (fits : α → β → List Node → Prop) : Prop :=
  Settles state fits (parser state.counted) (growth state)

theorem GrowsAt.shift {tokens : List Token} {parser : Parser α} {growth : Growth β}
    {fits : α → β → List Node → Prop} (h : GrowsAt ⟨tokens, state.arena⟩ parser growth fits) :
    Settles state fits (parser ⟨tokens, state.counted.pool⟩) (growth ⟨tokens, state.arena⟩) := by
  have settles : Settles _ fits (parser ⟨tokens, state.counted.pool⟩)
    (growth ⟨tokens, state.arena⟩) := h
  revert settles
  generalize parser _ = listed
  generalize growth _ = stored
  rintro (holds | diagnostic)
  · exact .done holds
  · exact .refused diagnostic

theorem Growth.bind_ok {growth : Growth β} {further : β → Growth δ} {handle : β} {after : State}
    (done : growth state = some (.ok (handle, after))) :
    (growth >>= further) state = further handle after := by
  show Option.bind (growth state : Option (Except Diagnostic (β × State))) _ = _
  rw [done]
  rfl

theorem Growth.bind_error {growth : Growth β} {further : β → Growth δ} {diagnostic : Diagnostic}
    (failed : growth state = some (.error diagnostic)) :
    (growth >>= further) state = some (.error diagnostic) := by
  show Option.bind (growth state : Option (Except Diagnostic (β × State))) _ = _
  rw [failed]
  rfl

/-- A parser that makes no node is only left with other tokens. -/
theorem Growth.reading_plain {first : Parser α} (plain : first.Plain) (state : State) :
    (∃ diagnostic, first state.counted = .error diagnostic ∧
      reading first state = some (.error diagnostic)) ∨
    ∃ made tokens, first state.counted = .ok (made, ⟨tokens, state.counted.pool⟩) ∧
      reading first state = some (.ok (made, ⟨tokens, state.arena⟩)) := by
  rw [reading]
  cases listed : first state.counted with
  | error diagnostic => exact .inl ⟨_, rfl, rfl⟩
  | ok found =>
    obtain ⟨made, tokens, pool⟩ := found
    obtain rfl : pool = state.counted.pool := plain.idle _ _ _ listed
    exact .inr ⟨_, _, rfl, rfl⟩

theorem Growth.reading_accept {kind : TokenKind} (here : state.counted.current.kind = kind) :
    reading (Parser.accept kind) state =
      some (.ok (true, ⟨state.counted.advance.tokens, state.arena⟩)) := by
  rw [reading, ← bind_pure (Parser.accept kind), Parser.accept_bind, if_pos here]
  rfl

theorem Growth.reading_accept_other {kind : TokenKind}
    (other : state.counted.current.kind ≠ kind) :
    reading (Parser.accept kind) state = some (.ok (false, state)) := by
  rw [reading, ← bind_pure (Parser.accept kind), Parser.accept_bind, if_neg other]
  rfl

/-- Behind the current token, fewer are left. -/
theorem State.advanced {tokens : List Token} (plain : state.counted.current.kind.isFinal = false)
    (moved : Parser.advance state.counted = .ok ((), ⟨tokens, state.counted.pool⟩)) :
    tokens.length < state.tokens.length ∧
      (ParserState.mk tokens state.counted.pool).current.kind = state.counted.following := by
  have stands : state.counted.advance = ⟨tokens, state.counted.pool⟩ :=
    congrArg Prod.snd (Except.ok.inj moved)
  have fewer := state.counted.length_advance_lt plain
  rw [stands] at fewer
  exact ⟨fewer, stands ▸ ParserState.kind_advance plain⟩

namespace GrowsAt

variable {parser : Parser α} {growth : Growth β} {between : α → β → List Node → Prop}
  {fits : γ → δ → List Node → Prop}

theorem pure {made : γ} {handle : δ} (h : fits made handle []) :
    GrowsAt state (Pure.pure made) (Pure.pure handle) fits := by
  have settled : Settles state fits (.ok (made, (state.grown state.tokens []).counted))
    (some (.ok (handle, state.grown state.tokens []))) := .done h
  rwa [State.grown_nil] at settled

theorem refuse {token : Token} {error : GrammarError} :
    GrowsAt state (Parser.refuse token error) (Growth.reading (Parser.refuse token error)) fits :=
  .refused _

theorem bind {second : α → Parser γ} {further : β → Growth δ}
    (h₁ : GrowsAt state parser growth between)
    (h₂ : ∀ made handle tokens nodes,
      parser state.counted = .ok (made, (state.grown tokens nodes).counted) →
      between made handle nodes →
      GrowsAt (state.grown tokens nodes) (second made) (further handle) fun last found more ↦
        fits last found (nodes ++ more)) :
    GrowsAt state (parser >>= second) (growth >>= further) fits := by
  unfold GrowsAt at h₁ ⊢
  generalize listed : parser state.counted = outcome at h₁
  generalize stored : growth state = result at h₁
  cases h₁ with
  | refused diagnostic =>
    rw [Growth.bind_error stored, Parser.bind_of_error listed]
    exact .refused diagnostic
  | @done made handle tokens nodes holds =>
    have later := h₂ made handle tokens nodes listed holds
    unfold GrowsAt at later
    rw [Growth.bind_ok stored, Parser.bind_of_ok listed]
    generalize second made _ = rest at later
    generalize further handle _ = last at later
    cases later with
    | refused diagnostic => exact .refused diagnostic
    | done holds =>
      rw [State.grown_grown]
      exact .done holds

/-- A step that makes no node, in front of others. -/
theorem read {first : Parser α} {second : α → Parser γ} {further : α → Growth δ}
    (plain : first.Plain)
    (h : ∀ made tokens, first state.counted = .ok (made, ⟨tokens, state.counted.pool⟩) →
      GrowsAt ⟨tokens, state.arena⟩ (second made) (further made) fits) :
    GrowsAt state (first >>= second) (Growth.reading first >>= further) fits := by
  unfold GrowsAt
  obtain ⟨diagnostic, listed, stored⟩ | ⟨made, tokens, listed, stored⟩ :=
    Growth.reading_plain plain state
  · rw [Growth.bind_error stored, Parser.bind_of_error listed]
    exact .refused diagnostic
  · rw [Growth.bind_ok stored, Parser.bind_of_ok listed]
    exact (h made tokens listed).shift

/-- Looking at the current token, which leads to what comes next. -/
theorem current {second : Token → Parser γ} {further : Token → Growth δ}
    (h : GrowsAt state (second state.counted.current) (further state.counted.current) fits) :
    GrowsAt state (Parser.current >>= second) (Growth.reading Parser.current >>= further) fits := by
  refine .read .current ?_
  rintro _ _ ⟨⟩
  exact h

/-- Consuming the current token if it is of a kind. -/
theorem accept {kind : TokenKind} (plain : kind.isFinal = false) {taken other : Parser γ}
    {further : Bool → Growth δ}
    (h₁ : ∀ tokens, tokens.length < state.tokens.length → state.counted.current.kind = kind →
      GrowsAt ⟨tokens, state.arena⟩ taken (further true) fits)
    (h₂ : state.counted.current.kind ≠ kind → GrowsAt state other (further false) fits) :
    GrowsAt state
      (do
        let token ← Parser.current
        if token.kind = kind then
          Parser.advance
          taken
        else other)
      (Growth.reading (Parser.accept kind) >>= further) fits := by
  unfold GrowsAt
  rw [Parser.current_bind]
  split
  · rename_i here
    have fewer := state.counted.length_advance_lt (by rw [here]; exact plain)
    have pool : state.counted.advance.pool = state.counted.pool :=
      Parser.Plain.advance.idle _ _ _ rfl
    rw [Growth.bind_ok (Growth.reading_accept here), Parser.advance_bind]
    have later := (h₁ _ fewer here).shift
    rwa [← pool] at later
  · rename_i absent
    rw [Growth.bind_ok (Growth.reading_accept_other absent)]
    exact h₂ absent

end GrowsAt

/-! ## Operands -/

namespace Growth

/-- A node that is counted is stored behind the others. -/
theorem growsAt_add (location : Location) (content : Content) :
    GrowsAt state (Parser.allocate location) (add location content) fun slot handle nodes ↦
      slot = state.arena.nodes.length ∧ handle = slot ∧ nodes = [⟨location, content⟩] := by
  unfold GrowsAt
  by_cases full : state.arena.capacity ≤ state.arena.nodes.length
  · rw [add, if_pos full, Parser.allocate_full full]
    exact .refused _
  · have stored : add location content state =
        some (.ok (state.arena.nodes.length, state.grown state.tokens [⟨location, content⟩])) := by
      rw [add, if_neg full]
      rfl
    have counted : Parser.allocate location state.counted = .ok (state.arena.nodes.length,
        (state.grown state.tokens [⟨location, content⟩]).counted) := by
      rw [Parser.allocate_free (Int.not_le.mp full), State.counted, State.grown]
      simp only [State.counted, List.length_append, List.length_singleton]
    rw [stored, counted]
    exact .done ⟨rfl, rfl, rfl⟩

/-- The parts of an operand are read first, and then its node is stored. -/
theorem growsAt_node {kind : Token → Parser OperandKind} (plain : ∀ token, (kind token).Plain) :
    GrowsAt state
      (do
        let token ← Parser.current
        let kind ← kind token
        return ⟨← Parser.allocate token.location, token.location, kind⟩)
      (do
        let token ← reading Parser.current
        let kind ← reading (kind token)
        add token.location (.operand kind))
      fun (operand : Operand) handle nodes ↦
        operand.slot = state.arena.nodes.length ∧ handle = operand.slot ∧
          nodes = [operand.arenaNode] := by
  refine .read .current fun token tokens _ ↦ .read (plain _) fun kind rest _ ↦ ?_
  rw [← bind_pure (add token.location _)]
  refine (growsAt_add _ _).bind fun slot handle _ nodes _ stored ↦ .pure ?_
  obtain ⟨rfl, rfl, rfl⟩ := stored
  exact ⟨rfl, rfl, rfl⟩

/-- What the second parser stores for operands are their nodes, numbered one after the other. -/
def Rows (start : Nat) (operands : List Operand) (handles : List Nat) (nodes : List Node) : Prop :=
  handles = operands.map (·.slot) ∧ nodes = operands.map Operand.arenaNode ∧
    operands.map (·.slot) = List.range' start operands.length

/-- An item, which is a row of its own. -/
def IsItem (item : Parser Operand) (stored : Growth Nat) : Prop :=
  ∀ state, GrowsAt state item stored fun operand handle nodes ↦
    operand.slot = state.arena.nodes.length ∧ handle = operand.slot ∧ nodes = [operand.arenaNode]

theorem isItem_operand : IsItem Grammar.operand operand :=
  fun _ ↦ growsAt_node Grammar.operandKind_plain

theorem isItem_argument : IsItem Grammar.argument argument :=
  fun _ ↦ growsAt_node Grammar.argumentKind_plain

theorem Rows.cons {start : Nat} {operand : Operand} {operands : List Operand} {handles : List Nat}
    {nodes : List Node} (first : operand.slot = start)
    (rest : Rows (start + 1) operands handles nodes) :
    Rows start (operand :: operands) (operand.slot :: handles) ([operand.arenaNode] ++ nodes) := by
  obtain ⟨rfl, rfl, numbered⟩ := rest
  refine ⟨rfl, rfl, ?_⟩
  rw [List.map_cons, numbered, first, List.length_cons, List.range'_succ]

variable {item : Parser Operand} {stored : Growth Nat}

/-- The loop over commas stores what the repetition makes. -/
theorem growsAt_afterCommas (shrinks : item.Shrinks) (same : IsItem item stored) (state : State) :
    GrowsAt state (Parser.many (Parser.afterComma item) (Parser.afterComma_consumes shrinks))
      (afterCommas stored) (Rows state.arena.nodes.length) := by
  -- The induction is on how many tokens are left.
  generalize left : state.tokens.length = length
  induction length using Nat.strongRecOn generalizing state with
  | ind length ih =>
    rw [Pull.many_afterComma_eq shrinks, afterCommas]
    refine .accept rfl (fun tokens fewer _ ↦ ?_) fun _ ↦ .pure ⟨rfl, rfl, rfl⟩
    refine (same _).bind fun operand handle rest nodes listed row ↦ ?_
    have shorter : rest.length < length := by
      have taken : rest.length ≤ tokens.length := shrinks _ _ _ listed
      omega
    refine (ih _ shorter _ rfl).bind fun operands handles _ more _ rows ↦ .pure ?_
    obtain ⟨first, rfl, rfl⟩ := row
    rw [List.append_nil]
    refine .cons first ?_
    simpa using rows

theorem growsAt_operandList (shrinks : item.Shrinks) (same : IsItem item stored) (state : State) :
    GrowsAt state (Grammar.operandList item shrinks) (operandList stored)
      (Rows state.arena.nodes.length) := by
  have list : GrowsAt state (Parser.commaSeparated item shrinks)
      (do
        let first ← stored
        let rest ← afterCommas stored
        return first :: rest) (Rows state.arena.nodes.length) := by
    refine (same _).bind fun operand handle tokens nodes _ row ↦
      (growsAt_afterCommas shrinks same _).bind fun operands handles _ more _ rows ↦ .pure ?_
    obtain ⟨first, rfl, rfl⟩ := row
    rw [List.append_nil]
    refine .cons first ?_
    simpa using rows
  refine .current ?_
  cases state.counted.current.kind with
  | newline => exact .pure ⟨rfl, rfl, rfl⟩
  | endOfInput => exact .pure ⟨rfl, rfl, rfl⟩
  | _ => exact list

/-! ## Statements -/

/-- What the second parser stores for a statement are its nodes, numbered one after the other. -/
def IsStatement (start : Nat) (statement : Statement) (handle : Nat) (nodes : List Node) : Prop :=
  handle = statement.slot ∧ nodes = statement.arenaNodes ∧
    statement.slots = List.range' start nodes.length

/-- A statement is stored behind its operands. -/
theorem growsAt_finish {location : Location} {operands : List Operand} {handles : List Nat}
    {front : List Node} {kind : StatementKind} {content : Content} {start : Nat}
    (rows : Rows start operands handles front) (below : kind.operands = operands)
    (same : kind.content = content) (behind : state.arena.nodes.length = start + front.length) :
    GrowsAt state
      (do
        let slot ← Parser.allocate location
        return ⟨slot, location, kind⟩)
      (add location content)
      fun statement handle nodes ↦ IsStatement start statement handle (front ++ nodes) := by
  rw [← bind_pure (add location content)]
  refine (growsAt_add _ _).bind fun slot handle _ nodes _ stored ↦ .pure ?_
  obtain ⟨rfl, rfl, rfl⟩ := stored
  obtain ⟨rfl, rfl, numbered⟩ := rows
  subst same below
  refine ⟨rfl, by rw [List.append_nil]; rfl, ?_⟩
  rw [Statement.slots, numbered, behind]
  simp [List.range'_concat]

theorem growsAt_instruction (first : Token) (spelling : String) (state : State) :
    GrowsAt state (Grammar.unendedInstruction first spelling) (instruction first spelling)
      (IsStatement state.arena.nodes.length) := by
  unfold Grammar.unendedInstruction instruction
  cases Mnemonic.ofSpelling? spelling with
  | none => exact .refuse
  | some mnemonic =>
    exact (growsAt_operandList Grammar.operand_shrinks isItem_operand state).bind
      fun operands handles tokens nodes _ rows ↦
        growsAt_finish rows rfl (by rw [rows.1]; rfl) (State.length_grown ..)

theorem growsAt_directive (dot : Token) (state : State) :
    GrowsAt state (Grammar.unendedDirective dot) (directive dot)
      (IsStatement state.arena.nodes.length) :=
  .read Grammar.directiveName_plain fun name rest _ ↦
    (growsAt_operandList Grammar.argument_shrinks isItem_argument ⟨rest, state.arena⟩).bind
      fun arguments handles tokens nodes _ rows ↦
        growsAt_finish rows rfl (by rw [rows.1]; rfl) (State.length_grown ..)

end Growth

/-! ## Lines -/

/-- The node of a program with further statements. -/
def Node.attachAll (handles : List Nat) (node : Node) : Node :=
  { node with content := handles.foldl (fun content handle ↦ content.attach handle) node.content }

theorem Node.attachAll_attachAll (handles more : List Nat) (node : Node) :
    (node.attachAll handles).attachAll more = node.attachAll (handles ++ more) := by
  simp only [attachAll, List.foldl_append]

/-- Handles are taken in one after the other. -/
theorem Growth.forM_attach (handles : List Nat) (state : State) :
    handles.forM (attach 0) state = some (.ok ((), ⟨state.tokens, { state.arena with
      nodes := state.arena.nodes.modify 0 (Node.attachAll handles) }⟩)) := by
  induction handles generalizing state with
  | nil =>
    have same : Node.attachAll [] = id := rfl
    rw [same, List.modify_id]
    rfl
  | cons handle handles ih =>
    show (attach 0 handle >>= fun _ ↦ handles.forM (attach 0)) state = _
    rw [bind_ok rfl, ih]
    obtain ⟨tokens, capacity, _ | ⟨root, others⟩⟩ := state <;> rfl

/-- The state behind more tokens, with more nodes stored, of which the first node knows. -/
def State.finished (state : State) (tokens : List Token) (handles : List Nat) (nodes : List Node) :
    State :=
  ⟨tokens, { state.arena with
    nodes := (state.arena.nodes ++ nodes).modify 0 (Node.attachAll handles) }⟩

theorem State.finished_grown (state : State) (tokens rest : List Token) (handles : List Nat)
    (nodes more : List Node) :
    (state.grown tokens nodes).finished rest handles more =
      state.finished rest handles (nodes ++ more) := by
  simp only [finished, grown, List.append_assoc]

/-- How the statements that are left are read, if some handles are still to be taken in. -/
inductive Tops (state : State) (pending : List Nat) :
    Except Diagnostic (List Statement × ParserState) →
      Option (Except Diagnostic (Unit × State)) → Prop
  | done {statements : List Statement} {tokens : List Token} {last : State}
    (finished : last = state.finished tokens (pending ++ statements.map (·.slot))
      (statements.flatMap Statement.arenaNodes))
    (numbered : statements.flatMap Statement.slots = List.range' state.arena.nodes.length
      (statements.flatMap Statement.arenaNodes).length) :
    Tops state pending (.ok (statements, last.counted)) (some (.ok ((), last)))
  | refused (diagnostic : Diagnostic) :
    Tops state pending (.error diagnostic) (some (.error diagnostic))

/-- From a state on, where there is the node of a program, the second parser reads the statements
that the first one does. -/
def TopsAt (state : State) (pending : List Nat) (parser : Parser (List Statement))
    (growth : Growth Unit) : Prop :=
  state.arena.nodes ≠ [] → Tops state pending (parser state.counted) (growth state)

namespace TopsAt

variable {pending : List Nat} {next : Parser (List Statement)}

theorem shift {tokens : List Token} {growth : Growth Unit}
    (h : TopsAt ⟨tokens, state.arena⟩ pending next growth) (root : state.arena.nodes ≠ []) :
    Tops state pending (next ⟨tokens, state.counted.pool⟩) (growth ⟨tokens, state.arena⟩) := by
  have tops : Tops _ pending (next ⟨tokens, state.counted.pool⟩) (growth ⟨tokens, state.arena⟩) :=
    h root
  revert tops
  generalize next _ = outcome
  generalize growth _ = ended
  rintro (⟨finished, numbered⟩ | diagnostic)
  · exact .done finished numbered
  · exact .refused diagnostic

theorem refuse {token : Token} {error : GrammarError} {further : α → Growth Unit} :
    TopsAt state pending (Parser.refuse token error)
      (Growth.reading (Parser.refuse token error) >>= further) := by
  intro _
  rw [Growth.bind_error rfl]
  exact .refused _

theorem none : TopsAt state [] (pure []) (pure ()) := by
  intro _
  refine @Tops.done state [] [] state.tokens state ?_ rfl
  have same : Node.attachAll [] = id := rfl
  simp [State.finished, same]

/-- A statement that is made in front of those that are left. -/
theorem statement {first : Parser Statement} {stored : Growth Nat} {further : Nat → Growth Unit}
    (h₁ : GrowsAt state first stored (Growth.IsStatement state.arena.nodes.length))
    (h₂ : ∀ found tokens, first state.counted =
        .ok (found, (state.grown tokens found.arenaNodes).counted) →
      TopsAt (state.grown tokens found.arenaNodes) (pending ++ [found.slot]) next
        (further found.slot)) :
    TopsAt state pending
      (do
        let found ← first
        let rest ← next
        return found :: rest)
      (stored >>= further) := by
  intro root
  unfold GrowsAt at h₁
  generalize listed : first state.counted = outcome at h₁
  generalize result : stored state = done at h₁
  cases h₁ with
  | refused diagnostic =>
    rw [Growth.bind_error result, Parser.bind_of_error listed]
    exact .refused diagnostic
  | @done found handle tokens nodes holds =>
    obtain ⟨rfl, rfl, numbered⟩ := holds
    have later := h₂ found tokens listed (by simp [State.grown, root])
    rw [Growth.bind_ok result, Parser.bind_of_ok listed]
    generalize last : further found.slot _ = ended at later
    generalize rest : next _ = others at later
    cases later with
    | refused diagnostic =>
      rw [Parser.bind_of_error rest]
      exact .refused diagnostic
    | @done statements left final finished slots =>
      rw [Parser.bind_of_ok rest]
      refine @Tops.done state pending (found :: statements) left final ?_ ?_
      · rw [finished, State.finished_grown]
        simp
      · rw [List.flatMap_cons, List.flatMap_cons, numbered, slots, State.length_grown,
          List.length_append, List.range'_append_1]

/-- A step that makes no node, in front of others. -/
theorem read {first : Parser α} {second : α → Parser (List Statement)} {further : α → Growth Unit}
    (plain : first.Plain)
    (h : ∀ made tokens, first state.counted = .ok (made, ⟨tokens, state.counted.pool⟩) →
      TopsAt ⟨tokens, state.arena⟩ pending (second made) (further made)) :
    TopsAt state pending (first >>= second) (Growth.reading first >>= further) := by
  intro root
  obtain ⟨diagnostic, listed, stored⟩ | ⟨made, tokens, listed, stored⟩ :=
    Growth.reading_plain plain state
  · rw [Growth.bind_error stored, Parser.bind_of_error listed]
    exact .refused diagnostic
  · rw [Growth.bind_ok stored, Parser.bind_of_ok listed]
    exact (h made tokens listed).shift root

theorem current {second : Token → Parser (List Statement)} {further : Token → Growth Unit}
    (h : TopsAt state pending (second state.counted.current) (further state.counted.current)) :
    TopsAt state pending (Parser.current >>= second)
      (Growth.reading Parser.current >>= further) := by
  refine .read .current ?_
  rintro _ _ ⟨⟩
  exact h

theorem seen {second : Token → Parser (List Statement)} {growth : Growth Unit}
    (h : TopsAt state pending (second state.counted.current) growth) :
    TopsAt state pending (Parser.current >>= second) growth := h

theorem following {second : TokenKind → Parser (List Statement)} {growth : Growth Unit}
    (h : TopsAt state pending (second state.counted.following) growth) :
    TopsAt state pending (Parser.following >>= second) growth := h

theorem lookedAhead {further : TokenKind → Growth Unit}
    (h : TopsAt state pending next (further state.counted.following)) :
    TopsAt state pending next (Growth.reading Parser.following >>= further) := by
  intro root
  rw [Growth.bind_ok rfl]
  exact h root

theorem accepted {kind : TokenKind} {further : Bool → Growth Unit}
    (here : state.counted.current.kind = kind)
    (h : TopsAt state pending next (do
      Growth.reading Parser.advance
      further true)) :
    TopsAt state pending next (Growth.reading (Parser.accept kind) >>= further) := by
  intro root
  rw [Growth.bind_ok (Growth.reading_accept here)]
  exact h root

theorem passed {kind : TokenKind} {further : Bool → Growth Unit}
    (other : state.counted.current.kind ≠ kind)
    (h : TopsAt state pending next (further false)) :
    TopsAt state pending next (Growth.reading (Parser.accept kind) >>= further) := by
  intro root
  rw [Growth.bind_ok (Growth.reading_accept_other other)]
  exact h root

/-- Another parser that does the same here. -/
theorem stepped {first second : Parser α} {further : α → Growth Unit}
    (same : second state.counted = first state.counted)
    (h : TopsAt state pending next (Growth.reading first >>= further)) :
    TopsAt state pending next (Growth.reading second >>= further) := by
  have equal : Growth.reading second state = Growth.reading first state := by
    rw [Growth.reading, Growth.reading, same]
  have whole : (Growth.reading second >>= further) state =
      (Growth.reading first >>= further) state := by
    show Option.bind (Growth.reading second state) _ = Option.bind (Growth.reading first state) _
    rw [equal]
  intro root
  rw [whole]
  exact h root

theorem idled {value : α} {further : α → Growth Unit}
    (h : TopsAt state pending next (further value)) :
    TopsAt state pending next (Growth.reading (pure value) >>= further) := by
  intro root
  rw [Growth.bind_ok rfl]
  exact h root

theorem looked {further : Token → Growth Unit}
    (h : TopsAt state pending next (further state.counted.current)) :
    TopsAt state pending next (Growth.reading Parser.current >>= further) := by
  intro root
  rw [Growth.bind_ok rfl]
  exact h root

/-- Consuming the current token, which leaves fewer tokens. -/
theorem advance {second : Unit → Parser (List Statement)} {further : Unit → Growth Unit}
    (plain : state.counted.current.kind.isFinal = false)
    (h : ∀ tokens, tokens.length < state.tokens.length →
      (ParserState.mk tokens state.counted.pool).current.kind = state.counted.following →
      TopsAt ⟨tokens, state.arena⟩ pending (second ()) (further ())) :
    TopsAt state pending (Parser.advance >>= second)
      (Growth.reading Parser.advance >>= further) := by
  refine .read .advance fun _ tokens moved ↦ ?_
  obtain ⟨fewer, next⟩ := State.advanced plain moved
  exact h tokens fewer next

/-- The handles that are pending are taken in. -/
theorem attached {growth : Growth Unit}
    (h : TopsAt ⟨state.tokens, { state.arena with
      nodes := state.arena.nodes.modify 0 (Node.attachAll pending) }⟩ [] next growth) :
    TopsAt state pending next (do
      pending.forM (Growth.attach 0)
      growth) := by
  intro root
  rw [Growth.bind_ok (Growth.forM_attach pending state)]
  have later := h (by simpa using root)
  have same : (State.mk state.tokens { state.arena with
      nodes := state.arena.nodes.modify 0 (Node.attachAll pending) }).counted = state.counted := by
    simp [State.counted]
  rw [same] at later
  generalize next _ = outcome at later
  generalize growth _ = ended at later
  cases later with
  | refused diagnostic => exact .refused diagnostic
  | @done statements tokens last finished numbered =>
    refine @Tops.done state pending statements tokens last ?_ (by simpa using numbered)
    obtain ⟨front, capacity, _ | ⟨top, others⟩⟩ := state
    · exact absurd rfl root
    · rw [finished]
      simp [State.finished, Node.attachAll_attachAll]

end TopsAt

/-- A statement with the end of its line, in front of the lines behind it. -/
theorem topsAt_line {part : Parser Statement} {stored : Growth Nat} {pending : List Nat}
    {length : Nat}
    (same : ∀ state : State,
      GrowsAt state part stored (Growth.IsStatement state.arena.nodes.length))
    (shrinks : part.Shrinks)
    (fewer : ∀ state : State, state.tokens.length < length →
      TopsAt state [] Pull.listedStatements (Growth.lines 0))
    (short : state.tokens.length < length) :
    TopsAt state pending
      (do
        let found ← part
        Grammar.endOfStatement
        let rest ← Pull.listedStatements
        return found :: rest)
      (do
        let handle ← stored
        (pending ++ [handle]).forM (Growth.attach 0)
        Growth.reading Grammar.endOfStatement
        Growth.lines 0) := by
  have split : (do
      let found ← part
      Grammar.endOfStatement
      let rest ← Pull.listedStatements
      return found :: rest) = (do
      let found ← part
      let rest ← (do
        Grammar.endOfStatement
        Pull.listedStatements)
      return found :: rest) := by
    simp only [bind_assoc]
  rw [split]
  refine .statement (same state) fun found tokens listed ↦
    .attached (.read Grammar.endOfStatement_plain fun _ rest ended ↦ fewer _ ?_)
  have taken : tokens.length ≤ state.tokens.length := shrinks _ _ _ listed
  have left : rest.length ≤ tokens.length := Grammar.endOfStatement_plain.shrinks _ _ _ ended
  show rest.length < length
  omega

/-- The statements of a line, some of which may be pending, and the lines behind it. -/
def Growth.lineWith (pending : List Nat) : Growth Unit := do
  let handles ← statement
  (pending ++ handles).forM (attach 0)
  reading Grammar.endOfStatement
  lines 0

theorem Growth.lines_eq :
    lines 0 = (do
      if (← reading Parser.current).kind = .endOfInput then return
      else if ← reading (Parser.accept .newline) then lines 0
      else lineWith []) := by
  conv => lhs; rw [lines, untilEnd]
  refine bind_congr fun next ↦ ite_congr rfl (fun _ ↦ rfl) fun _ ↦ ?_
  rw [line, bind_assoc]
  refine bind_congr fun empty ↦ ?_
  cases empty with
  | true => rfl
  | false => simp [lineWith, lines, line]

/-- A line is read item by item. -/
theorem Growth.lineWith_eq (pending : List Nat) :
    lineWith pending = (do
      let (handle, more) ← lineItem
      if more then lineWith (pending ++ [handle])
      else
        (pending ++ [handle]).forM (attach 0)
        reading Grammar.endOfStatement
        lines 0) := by
  conv => lhs; rw [lineWith, statement, upToLast, bind_assoc]
  refine bind_congr fun (handle, more) ↦ ?_
  cases more with
  | true => simp [lineWith, statement]
  | false => simp

section

variable {length : Nat}
  (fewer : ∀ state : State, state.tokens.length < length →
    TopsAt state [] Pull.listedStatements (Growth.lines 0))
include fewer

/-- Behind the last statement of a line, with nothing pending. -/
theorem topsAt_ended (short : state.tokens.length < length)
    (ends : state.counted.current.kind = .newline ∨ state.counted.current.kind = .endOfInput) :
    TopsAt state [] Pull.listedStatements (do
      Growth.reading Grammar.endOfStatement
      Growth.lines 0) := by
  rw [Pull.listedStatements_eq]
  refine .seen (.following ?_)
  obtain line | ended := ends
  · have ending : Grammar.endOfStatement state.counted = Parser.advance state.counted := by
      rw [Grammar.endOfStatement, Parser.current_bind, line]
    rw [line]
    refine .stepped ending (.advance (by rw [line]; rfl) fun tokens less _ ↦ fewer _ ?_)
    exact Nat.lt_trans less short
  · have ending : Grammar.endOfStatement state.counted = (pure () : Parser Unit) state.counted := by
      rw [Grammar.endOfStatement, Parser.current_bind, ended]
    rw [ended]
    refine .stepped ending (.idled ?_)
    rw [Growth.lines_eq]
    refine .looked ?_
    rw [if_pos ended]
    exact .none

/-- Behind the last statement of a line. -/
theorem topsAt_ending {pending : List Nat} (short : state.tokens.length < length)
    (ends : state.counted.current.kind = .newline ∨ state.counted.current.kind = .endOfInput) :
    TopsAt state pending Pull.listedStatements (do
      pending.forM (Growth.attach 0)
      Growth.reading Grammar.endOfStatement
      Growth.lines 0) :=
  .attached (topsAt_ended fewer short ends)

/-- A label, behind its name, with the rest of its line and the lines behind it. -/
theorem topsAt_label {first : Token} {name : String} {pending : List Nat}
    (within : ∀ (state : State) (pending : List Nat), state.tokens.length < length →
      state.counted.current.kind ≠ .newline → state.counted.current.kind ≠ .endOfInput →
        TopsAt state pending Pull.listedStatements (Growth.lineWith pending))
    (short : state.tokens.length < length) (colon : state.counted.current.kind = .colon) :
    TopsAt state pending
      (do
        let found ← Grammar.namedStatement first name .colon
        let rest ← Pull.listedStatements
        return found :: rest)
      (do
        Growth.reading Parser.advance
        let label ← Growth.add first.location (.label name)
        let next ← Growth.reading Parser.current
        if next.kind ≠ .newline ∧ next.kind ≠ .endOfInput then
          Growth.lineWith (pending ++ [label])
        else do
          (pending ++ [label]).forM (Growth.attach 0)
          Growth.reading Grammar.endOfStatement
          Growth.lines 0) := by
  have split : (do
      let found ← Grammar.namedStatement first name .colon
      let rest ← Pull.listedStatements
      return found :: rest) = (do
      Parser.advance
      let found ← (do
        let slot ← Parser.allocate first.location
        return ⟨slot, first.location, .label name⟩ : Parser Statement)
      let rest ← Pull.listedStatements
      return found :: rest) := by
    simp only [Grammar.namedStatement, Grammar.label, bind_assoc, pure_bind]
  rw [split]
  refine .advance (by rw [colon]; rfl) fun tokens less _ ↦ ?_
  have none : Growth.Rows state.arena.nodes.length [] [] [] := ⟨rfl, rfl, rfl⟩
  refine .statement (Growth.growsAt_finish none rfl rfl rfl) fun found rest listed ↦ .looked ?_
  have shorter : rest.length < length := by
    have shrinks : Parser.Shrinks (do
        let slot ← Parser.allocate first.location
        return ⟨slot, first.location, .label name⟩ : Parser Statement) :=
      .bind (.allocate _) fun _ ↦ .pure _
    have left : rest.length ≤ tokens.length := shrinks _ _ _ listed
    omega
  generalize behind : (State.mk tokens state.arena).grown rest found.arenaNodes = after
  replace shorter : after.tokens.length < length := behind ▸ shorter
  by_cases more : after.counted.current.kind ≠ .newline ∧ after.counted.current.kind ≠ .endOfInput
  · rw [if_pos more]
    exact within _ _ shorter more.1 more.2
  · rw [if_neg more]
    exact topsAt_ending fewer shorter (Decidable.or_iff_not_not_and_not.mpr more)

end

/-- Both parsers read the lines that are left alike, at the beginning of a line and within it. -/
theorem topsAt_lines (length : Nat) :
    (∀ state : State, state.tokens.length = length →
      TopsAt state [] Pull.listedStatements (Growth.lines 0)) ∧
    (∀ (state : State) (pending : List Nat), state.tokens.length = length →
      state.counted.current.kind ≠ .newline → state.counted.current.kind ≠ .endOfInput →
        TopsAt state pending Pull.listedStatements (Growth.lineWith pending)) := by
  -- The induction is on how many tokens are left. A line within which it stands has some.
  induction length using Nat.strongRecOn with
  | ind length ih =>
    have fewer (state : State) (short : state.tokens.length < length) :
        TopsAt state [] Pull.listedStatements (Growth.lines 0) := (ih _ short).1 state rfl
    have within (state : State) (pending : List Nat) (here : state.tokens.length = length)
        (line : state.counted.current.kind ≠ .newline)
        (more : state.counted.current.kind ≠ .endOfInput) :
        TopsAt state pending Pull.listedStatements (Growth.lineWith pending) := by
      rw [Pull.listedStatements_eq, Growth.lineWith_eq, Growth.lineItem, bind_assoc]
      refine .current (.following ?_)
      cases kind : state.counted.current.kind with
      | newline => exact absurd kind line
      | endOfInput => exact absurd kind more
      | dot =>
        simp only [Grammar.directive_eq, bind_assoc, pure_bind]
        refine .advance (by rw [kind]; rfl) fun tokens less _ ↦ ?_
        exact topsAt_line (Growth.growsAt_directive _) (Grammar.unendedDirective_shrinks _) fewer
          (here ▸ less)
      | identifier name =>
        simp only [bind_assoc]
        refine .lookedAhead ?_
        by_cases colon : state.counted.following = .colon
        · rw [if_pos colon, colon]
          simp only [bind_assoc, pure_bind, decide_eq_true_eq]
          refine .advance (by rw [kind]; rfl) fun tokens less next ↦ ?_
          exact @topsAt_label ⟨tokens, state.arena⟩ _ fewer _ _ _
            (fun _ _ short ↦ (ih _ short).2 _ _ rfl) (here ▸ less) (next.trans colon)
        · rw [if_neg colon, Pull.namedStatement_eq _ _ colon]
          simp only [Grammar.instruction_eq, bind_assoc, pure_bind]
          refine .advance (by rw [kind]; rfl) fun tokens less _ ↦ ?_
          exact topsAt_line (Growth.growsAt_instruction _ _)
            (Grammar.unendedInstruction_shrinks _ _) fewer (here ▸ less)
      | _ => exact .refuse
    refine ⟨fun state here ↦ ?_, within⟩
    rw [Growth.lines_eq]
    refine .looked ?_
    by_cases ended : state.counted.current.kind = .endOfInput
    · rw [if_pos ended, Pull.listedStatements_eq]
      refine .seen (.following ?_)
      rw [ended]
      exact .none
    rw [if_neg ended]
    by_cases line : state.counted.current.kind = .newline
    · rw [Pull.listedStatements_eq]
      refine .seen (.following ?_)
      rw [line]
      exact .accepted line (.advance (by rw [line]; rfl) fun tokens less _ ↦ fewer _ (here ▸ less))
    · exact .passed line (within state [] here line ended)

/-! ## Whole programs -/

/-- How both parsers end on all tokens of a source. -/
inductive Ends (file : String) (capacity : Int) :
    Except Diagnostic ((Nat × List Statement) × ParserState) →
      Option (Except Diagnostic (Nat × State)) → Prop
  | done {statements : List Statement} {last : State}
    (arena : last.arena = ⟨capacity, ⟨⟨file, 1, 1⟩, .program (statements.map (·.slot))⟩ ::
      statements.flatMap Statement.arenaNodes⟩)
    (numbered : statements.flatMap Statement.slots =
      List.range' 1 (statements.flatMap Statement.arenaNodes).length) :
    Ends file capacity (.ok ((0, statements), last.counted)) (some (.ok (0, last)))
  | refused (diagnostic : Diagnostic) :
    Ends file capacity (.error diagnostic) (some (.error diagnostic))

theorem Node.attachAll_program (handles : List Nat) (location : Location) (before : List Nat) :
    (Node.mk location (.program before)).attachAll handles =
      ⟨location, .program (before ++ handles)⟩ := by
  have taken : handles.foldl (fun content handle ↦ content.attach handle) (.program before) =
      Content.program (before ++ handles) := by
    induction handles generalizing before with
    | nil => simp
    | cons handle handles ih =>
      rw [List.foldl_cons, Content.attach, ih, List.append_assoc, List.singleton_append]
  rw [attachAll, taken]

theorem program_ends (file : String) (tokens : List Token) (capacity : Int) :
    Ends file capacity (Grammar.program file ⟨tokens, ⟨capacity, 0⟩⟩)
      (Growth.program file ⟨tokens, ⟨capacity, []⟩⟩) := by
  have listing : Grammar.program file = (do
      let root ← Parser.allocate ⟨file, 1, 1⟩
      let found ← Pull.listedStatements
      return (root, found)) := by
    simp only [Grammar.program, Pull.listedStatements, bind_assoc, pure_bind]
  rw [listing, Growth.program]
  by_cases full : capacity ≤ (0 : Nat)
  · have counted : Parser.allocate ⟨file, 1, 1⟩ ⟨tokens, ⟨capacity, 0⟩⟩ = _ :=
      Parser.allocate_full full
    have stored : Growth.add ⟨file, 1, 1⟩ (.program []) ⟨tokens, ⟨capacity, []⟩⟩ = _ := if_pos full
    rw [Growth.bind_error stored, Parser.bind_of_error counted]
    exact .refused _
  let top : State := ⟨tokens, ⟨capacity, [⟨⟨file, 1, 1⟩, .program []⟩]⟩⟩
  have counted : Parser.allocate ⟨file, 1, 1⟩ ⟨tokens, ⟨capacity, 0⟩⟩ = .ok (0, top.counted) :=
    Parser.allocate_free (Int.not_le.mp full)
  have stored : Growth.add ⟨file, 1, 1⟩ (.program []) ⟨tokens, ⟨capacity, []⟩⟩ =
      some (.ok (0, top)) := if_neg full
  rw [Growth.bind_ok stored, Parser.bind_of_ok counted]
  have tops := (topsAt_lines tokens.length).1 top rfl (List.cons_ne_nil _ _)
  generalize read : Pull.listedStatements _ = outcome at tops
  generalize grown : Growth.lines 0 _ = ended at tops
  cases tops with
  | refused diagnostic =>
    rw [Growth.bind_error grown, Parser.bind_of_error read]
    exact .refused diagnostic
  | @done statements left last finished numbered =>
    rw [Growth.bind_ok grown, Parser.bind_of_ok read]
    refine @Ends.done file capacity statements last ?_ numbered
    rw [finished]
    simp only [top, State.finished, List.nil_append, List.cons_append, List.modify_zero_cons,
      Node.attachAll_program]

end Arena

/-- The root of a program is its first node, and the others are numbered in the order of the source,
each statement behind its operands. -/
theorem Program.numbered_of_parse {source file : String} {capacity : Int} {program : Program}
    (read : Program.parse source file capacity = .ok program) :
    program.root = 0 ∧
      program.statements.flatMap Statement.slots =
        List.range' 1 (program.statements.flatMap Statement.arenaNodes).length ∧
      program.nodes = (program.arena capacity).nodes.length := by
  obtain ⟨after, ran, made⟩ := exists_run_of_parse read
  have ends := Arena.program_ends file ((Cursor.start source 1).tokens file) capacity
  rw [ran] at ends
  generalize Arena.Growth.program file _ = grown at ends
  rw [made]
  generalize program.root = root at ends ⊢
  generalize program.statements = statements at ends ⊢
  cases ends with
  | done arena numbered =>
    refine ⟨rfl, numbered, ?_⟩
    rw [Arena.State.counted, arena]
    rfl

/-- The arena of a program is the one that its parser fills, which always comes to an end. -/
theorem Arena.parse_eq (source file : String) (capacity : Int) :
    Arena.parse source file capacity =
      some ((Program.parse source file capacity).map fun program ↦
        ⟨source, file, program.root, program.arena capacity⟩) := by
  have ends := program_ends file ((Cursor.start source 1).tokens file) capacity
  unfold parse Program.parse
  dsimp only [StateT.run]
  generalize Growth.program file _ = grown at ends
  generalize Grammar.program file _ = listed at ends
  cases ends with
  | refused diagnostic =>
    dsimp only
    cases diagnostic.error <;> rfl
  | @done statements last arena numbered =>
    dsimp only [Except.map]
    rw [arena]
    rfl

end MiniA64
