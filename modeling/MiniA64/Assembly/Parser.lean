import MiniA64.Assembly.Diagnostic
import MiniA64.Assembly.Statement
import MiniA64.Assembly.Token

/-!
# Parsing

A parser reads tokens from the left and makes nodes; the first token outside the grammar ends it.
The token that ends the input is never consumed, and neither is one that reports characters
outside every token: the report takes the place of whatever the grammar has to say there.

A repetition ends because each of its items consumes a token.
-/

namespace MiniA64

/-- How many nodes a program has so far, and how many it may have. -/
structure NodePool where
  capacity : Int
  used : Nat
  deriving Repr

structure ParserState where
  tokens : List Token
  pool : NodePool
  deriving Repr

abbrev Parser := StateT ParserState (Except Diagnostic)

namespace ParserState

def current (state : ParserState) : Token :=
  state.tokens.headD ⟨.endOfInput, default, 0, 0⟩

/-- The kind of the token after the current one. -/
def following (state : ParserState) : TokenKind :=
  match state.tokens with
  | _ :: token :: _ => token.kind
  | _ => .endOfInput

def advance (state : ParserState) : ParserState :=
  if state.current.kind.isFinal then state else { state with tokens := state.tokens.tail }

theorem length_advance_le (state : ParserState) :
    state.advance.tokens.length ≤ state.tokens.length := by
  unfold advance
  split <;> simp

theorem length_advance_lt (state : ParserState) (h : state.current.kind.isFinal = false) :
    state.advance.tokens.length < state.tokens.length := by
  rcases state with ⟨_ | ⟨token, rest⟩, pool⟩
  · cases h
  · have here : token.kind.isFinal = false := h
    simp [advance, current, here]

theorem kind_advance {state : ParserState} (going : state.current.kind.isFinal = false) :
    state.advance.current.kind = state.following := by
  rw [advance, if_neg (by rw [going]; exact Bool.false_ne_true)]
  obtain ⟨_ | ⟨token, _ | ⟨next, rest⟩⟩, pool⟩ := state
  · cases going
  · rfl
  · rfl

end ParserState

namespace Parser

def current : Parser Token := fun state ↦ .ok (state.current, state)

def following : Parser TokenKind := fun state ↦ .ok (state.following, state)

/-- Consumes the current token, unless it ends the sequence. -/
def advance : Parser Unit := fun state ↦ .ok ((), state.advance)

/-- Refuses a token. A token that reports characters outside every token keeps its report. -/
def refuse {α : Type} (token : Token) (error : GrammarError) : Parser α := fun _ ↦
  let error := match token.kind with
    | .error lexical => .lexical lexical
    | _ => error
  .error ((AssemblyError.grammar error).locatedAt token.location)

/-- Takes a node, which becomes part of the tree for good. -/
def allocate (location : Location) : Parser Nat := fun state ↦
  if state.pool.capacity ≤ state.pool.used then
    .error ((AssemblyError.nodePoolExhausted state.pool.capacity).locatedAt location)
  else
    .ok (state.pool.used, { state with pool := { state.pool with used := state.pool.used + 1 } })

/-- Consumes the current token if it is of a kind. -/
def accept (kind : TokenKind) : Parser Bool := do
  let token ← current
  if token.kind = kind then
    advance
    return true
  else return false

def expect (kind : TokenKind) (error : GrammarError) : Parser Unit := do
  let token ← current
  if token.kind = kind then advance else refuse token error

def identifier (error : GrammarError) : Parser String := do
  let token ← current
  match token.kind with
  | .identifier name =>
    advance
    return name
  | _ => refuse token error

def number (error : GrammarError) : Parser Int := do
  let token ← current
  match token.kind with
  | .number value =>
    advance
    return value
  | _ => refuse token error

/-- A number, which a minus sign in front of it negates. -/
def signedNumber (error : GrammarError) : Parser Int := do
  let negative ← accept .minus
  let value ← number error
  return if negative then -value else value

/-- The parser leaves no more tokens than it finds. -/
def Shrinks {α : Type} (parser : Parser α) : Prop :=
  ∀ state result after, parser state = .ok (result, after) →
    after.tokens.length ≤ state.tokens.length

/-- The parser consumes a token when it has an item to show. -/
def Consumes {α : Type} (parser : Parser (Option α)) : Prop :=
  ∀ state item after, parser state = .ok (some item, after) →
    after.tokens.length < state.tokens.length

theorem bind_eq_ok {α β : Type} {first : Parser α} {second : α → Parser β} {state : ParserState}
    {result : β} {after : ParserState} (h : (first >>= second) state = .ok (result, after)) :
    ∃ item between, first state = .ok (item, between) ∧
      second item between = .ok (result, after) := by
  change (first state >>= fun pair ↦ second pair.1 pair.2) = _ at h
  cases step : first state with
  | error error => rw [step] at h; cases h
  | ok pair =>
    rw [step] at h
    exact ⟨pair.1, pair.2, rfl, h⟩

section

variable {α β : Type} {state : ParserState}

theorem bind_of_ok {first : Parser α} {second : α → Parser β} {between : ParserState} {item : α}
    (done : first state = .ok (item, between)) :
    (first >>= second) state = second item between := by
  show first state >>= (fun pair ↦ second pair.1 pair.2) = _
  rw [done]
  rfl

theorem current_bind (next : Token → Parser α) :
    (current >>= next) state = next state.current state := rfl

theorem following_bind (next : TokenKind → Parser α) :
    (following >>= next) state = next state.following state := rfl

theorem advance_bind (next : Unit → Parser α) :
    (advance >>= next) state = next () state.advance := rfl

theorem accept_bind (kind : TokenKind) (next : Bool → Parser α) :
    (accept kind >>= next) state =
      if state.current.kind = kind then next true state.advance else next false state := by
  rw [accept, bind_assoc, current_bind]
  split <;> rfl

end

namespace Shrinks

theorem pure {α : Type} (result : α) : Shrinks (Pure.pure result : Parser α) := by
  intro state item after h
  cases h
  exact Nat.le_refl _

theorem bind {α β : Type} {first : Parser α} {second : α → Parser β} (h₁ : Shrinks first)
    (h₂ : ∀ item, Shrinks (second item)) : Shrinks (first >>= second) := by
  intro state result after h
  obtain ⟨item, between, step₁, step₂⟩ := bind_eq_ok h
  exact Nat.le_trans (h₂ _ _ _ _ step₂) (h₁ _ _ _ step₁)

theorem current : Shrinks Parser.current := by
  intro state result after h
  cases h
  exact Nat.le_refl _

theorem following : Shrinks Parser.following := by
  intro state result after h
  cases h
  exact Nat.le_refl _

theorem advance : Shrinks Parser.advance := by
  intro state result after h
  cases h
  exact state.length_advance_le

theorem refuse {α : Type} (token : Token) (error : GrammarError) :
    Shrinks (Parser.refuse token error : Parser α) := by
  intro state result after h
  cases h

theorem allocate (location : Location) : Shrinks (Parser.allocate location) := by
  intro state result after h
  unfold Parser.allocate at h
  split at h
  · cases h
  · cases h
    exact Nat.le_refl _

end Shrinks

/-- The parser looks at tokens, takes them and refuses them, and makes no node. -/
inductive Plain : {α : Type} → Parser α → Prop
  | pure {α : Type} (result : α) : Plain (Pure.pure result : Parser α)
  | bind {α β : Type} {first : Parser α} {second : α → Parser β} (h₁ : Plain first)
    (h₂ : ∀ item, Plain (second item)) : Plain (first >>= second)
  | current : Plain Parser.current
  | following : Plain Parser.following
  | advance : Plain Parser.advance
  | refuse {α : Type} (token : Token) (error : GrammarError) :
    Plain (Parser.refuse token error : Parser α)

namespace Plain

theorem shrinks {α : Type} {parser : Parser α} (plain : Plain parser) : Shrinks parser := by
  induction plain with
  | pure result => exact .pure result
  | bind _ _ ih₁ ih₂ => exact .bind ih₁ ih₂
  | current => exact .current
  | following => exact .following
  | advance => exact .advance
  | refuse token error => exact .refuse token error

theorem accept (kind : TokenKind) : Plain (Parser.accept kind) := by
  refine bind current fun token ↦ ?_
  split
  · exact bind advance fun _ ↦ pure _
  · exact pure _

theorem expect (kind : TokenKind) (error : GrammarError) : Plain (Parser.expect kind error) := by
  refine bind current fun token ↦ ?_
  split
  · exact advance
  · exact refuse _ _

theorem identifier (error : GrammarError) : Plain (Parser.identifier error) := by
  refine bind current fun token ↦ ?_
  split
  · exact bind advance fun _ ↦ pure _
  · exact refuse _ _

theorem number (error : GrammarError) : Plain (Parser.number error) := by
  refine bind current fun token ↦ ?_
  split
  · exact bind advance fun _ ↦ pure _
  · exact refuse _ _

theorem signedNumber (error : GrammarError) : Plain (Parser.signedNumber error) :=
  bind (accept _) fun _ ↦ bind (number _) fun _ ↦ pure _

end Plain

/-- All items up to the first failure of the parser to find one. -/
def many {α : Type} (item : Parser (Option α)) (consumes : Consumes item)
    (state : ParserState) : Except Diagnostic (List α × ParserState) :=
  match _step : item state with
  | .error error => .error error
  | .ok (none, after) => .ok ([], after)
  | .ok (some first, after) =>
    match many item consumes after with
    | .error error => .error error
    | .ok (rest, last) => .ok (first :: rest, last)
termination_by state.tokens.length
decreasing_by exact consumes _ _ _ _step

theorem many_shrinks {α : Type} (item : Parser (Option α)) (consumes : Consumes item)
    (shrinks : Shrinks item) : Shrinks (many item consumes) := by
  intro state
  fun_induction many item consumes state with
  | case1 => intro result after h; cases h
  | case2 state between step =>
    intro result after h
    cases h
    exact shrinks _ _ _ step
  | case3 => intro result after h; cases h
  | case4 state first between step rest last tail ih =>
    intro result after h
    cases h
    exact Nat.le_trans (ih _ _ tail) (shrinks _ _ _ step)

/-- An item after a comma, if there is a comma. -/
def afterComma {α : Type} (item : Parser α) : Parser (Option α) := do
  let token ← current
  if token.kind = .comma then
    advance
    let next ← item
    return some next
  else return none

theorem consumes_of_advance {α : Type} {item : Parser (Option α)} {state after : ParserState}
    {result : Option α} (final : state.current.kind.isFinal = false) (shrinks : Shrinks item)
    (h : (do advance; item : Parser (Option α)) state = .ok (result, after)) :
    after.tokens.length < state.tokens.length := by
  obtain ⟨_, between, step₁, step₂⟩ := bind_eq_ok h
  cases step₁
  exact Nat.lt_of_le_of_lt (shrinks _ _ _ step₂) (state.length_advance_lt final)

theorem afterComma_shrinks {α : Type} {item : Parser α} (shrinks : Shrinks item) :
    Shrinks (afterComma item) := by
  refine .bind .current fun token ↦ ?_
  split
  · exact .bind .advance fun _ ↦ .bind shrinks fun _ ↦ .pure _
  · exact .pure _

theorem afterComma_consumes {α : Type} {item : Parser α} (shrinks : Shrinks item) :
    Consumes (afterComma item) := by
  intro state first after h
  obtain ⟨token, between, step₁, step₂⟩ := bind_eq_ok h
  cases step₁
  split at step₂
  · rename_i comma
    exact consumes_of_advance (by rw [comma]; rfl) (.bind shrinks fun _ ↦ .pure _) step₂
  · cases step₂

/-- At least one item, with commas between items. -/
def commaSeparated {α : Type} (item : Parser α) (shrinks : Shrinks item) : Parser (List α) := do
  let first ← item
  let rest ← many (afterComma item) (afterComma_consumes shrinks)
  return first :: rest

theorem commaSeparated_shrinks {α : Type} (item : Parser α) (shrinks : Shrinks item) :
    Shrinks (commaSeparated item shrinks) :=
  .bind shrinks fun _ ↦
    .bind (many_shrinks _ _ (afterComma_shrinks shrinks)) fun _ ↦ .pure _

end Parser

end MiniA64
