import MiniA64.Assembly.Grammar

/-!
# What parsers make of tokens

A parser yields a result from tokens of certain kinds if, in front of whatever may follow, it
takes exactly these tokens, makes so many nodes and gives such a result. The places of the tokens
and the numbers of the nodes do not matter for that. What a parser yields is put together from
what its parts yield.
-/

namespace MiniA64

namespace Parser

/-- From tokens of some kinds with others after them the parser makes a good result. -/
def Yields {α : Type} (parser : Parser α) (kinds after : List TokenKind) (nodes : Nat)
    (good : α → Prop) : Prop :=
  ∀ state : ParserState, state.tokens.map (·.kind) = kinds ++ after →
    ((state.pool.used + nodes : Nat) : Int) ≤ state.pool.capacity →
      ∃ result tokens, parser state =
          .ok (result, ⟨tokens, state.pool.capacity, state.pool.used + nodes⟩) ∧
        tokens.map (·.kind) = after ∧ good result

section

variable {α β : Type} {kinds more after : List TokenKind} {kind : TokenKind} {nodes : Nat}
  {good : β → Prop}

theorem yields_pure {result : β} (h : good result) :
    Yields (pure result) [] after 0 good := by
  intro state tokens _
  exact ⟨result, state.tokens, rfl, tokens, h⟩

theorem Yields.mono {parser : Parser β} {better : β → Prop}
    (h : Yields parser kinds after nodes better) (weaken : ∀ result, better result → good result) :
    Yields parser kinds after nodes good := by
  intro state tokens room
  obtain ⟨result, left, step, hleft, hresult⟩ := h state tokens room
  exact ⟨result, left, step, hleft, weaken result hresult⟩

/-- A parser followed by another one takes the tokens of both. -/
theorem Yields.bind {first : Parser α} {second : α → Parser β} {some rest : Nat}
    {between : α → Prop} (h₁ : Yields first kinds (more ++ after) some between)
    (h₂ : ∀ item, between item → Yields (second item) more after rest good) :
    Yields (first >>= second) (kinds ++ more) after (some + rest) good := by
  intro state tokens room
  rw [List.append_assoc] at tokens
  obtain ⟨item, left, step₁, hleft, hitem⟩ := h₁ state tokens (by omega)
  obtain ⟨result, last, step₂, hlast, hresult⟩ :=
    h₂ item hitem ⟨left, state.pool.capacity, state.pool.used + some⟩ hleft
      (by rw [Nat.add_assoc]; exact room)
  refine ⟨result, last, ?_, hlast, hresult⟩
  change (first state >>= fun pair ↦ second pair.1 pair.2) = _
  rw [step₁, ← Nat.add_assoc]
  exact step₂

/-- A parser that makes no nodes, followed by another one. -/
theorem Yields.andThen {first : Parser α} {second : α → Parser β} {between : α → Prop}
    (h₁ : Yields first kinds (more ++ after) 0 between)
    (h₂ : ∀ item, between item → Yields (second item) more after nodes good) :
    Yields (first >>= second) (kinds ++ more) after nodes good := by
  have both := h₁.bind h₂
  rwa [Nat.zero_add] at both

/-- A parser that takes nothing, followed by another one. -/
theorem Yields.peek {first : Parser α} {second : α → Parser β} {between : α → Prop}
    (h₁ : Yields first [] (kinds ++ after) 0 between)
    (h₂ : ∀ item, between item → Yields (second item) kinds after nodes good) :
    Yields (first >>= second) kinds after nodes good :=
  h₁.andThen h₂

/-- A parser followed by one that takes nothing. -/
theorem Yields.map {first : Parser α} {second : α → Parser β} {between : α → Prop}
    (h₁ : Yields first kinds after nodes between)
    (h₂ : ∀ item, between item → Yields (second item) [] after 0 good) :
    Yields (first >>= second) kinds after nodes good := by
  have both := Yields.bind h₁ h₂
  rwa [List.append_nil] at both

theorem current_eq {state : ParserState} {rest : List TokenKind}
    (tokens : state.tokens.map (·.kind) = kind :: rest) : state.current.kind = kind := by
  obtain ⟨token, tail, equal, rfl, -⟩ := List.map_eq_cons_iff.mp tokens
  rw [ParserState.current, equal]
  rfl

theorem following_eq {state : ParserState} {next : TokenKind} {rest : List TokenKind}
    (tokens : state.tokens.map (·.kind) = kind :: next :: rest) : state.following = next := by
  obtain ⟨token, tail, equal, -, tail'⟩ := List.map_eq_cons_iff.mp tokens
  obtain ⟨second, _, rfl, rfl, -⟩ := List.map_eq_cons_iff.mp tail'
  rw [ParserState.following, equal]

/-- Looking at the current token takes nothing. -/
theorem Yields.current {second : Token → Parser β} {rest : List TokenKind}
    (split : kinds ++ after = kind :: rest)
    (h : ∀ token, token.kind = kind → Yields (second token) kinds after nodes good) :
    Yields (Parser.current >>= second) kinds after nodes good := by
  intro state tokens room
  exact h state.current (current_eq (tokens.trans split)) state tokens room

theorem Yields.following {second : TokenKind → Parser β} {next : TokenKind}
    {rest : List TokenKind} (split : kinds ++ after = kind :: next :: rest)
    (h : Yields (second next) kinds after nodes good) :
    Yields (Parser.following >>= second) kinds after nodes good := by
  intro state tokens room
  rw [← following_eq (tokens.trans split)] at h
  exact h state tokens room

/-- Looking ahead for something that does not matter. -/
theorem Yields.followingAny {second : TokenKind → Parser β}
    (h : ∀ next, Yields (second next) kinds after nodes good) :
    Yields (Parser.following >>= second) kinds after nodes good :=
  fun state tokens room ↦ h state.following state tokens room

theorem yields_advance (goes : kind.isFinal = false) :
    Yields Parser.advance [kind] after 0 fun _ ↦ True := by
  intro state tokens _
  obtain ⟨token, tail, equal, rfl, tail'⟩ := List.map_eq_cons_iff.mp tokens
  have current : state.current = token := by rw [ParserState.current, equal]; rfl
  refine ⟨(), tail, ?_, tail', trivial⟩
  rw [Parser.advance, ParserState.advance, current, if_neg (by rw [goes]; decide), equal]
  rfl

theorem yields_allocate (location : Location) :
    Yields (allocate location) [] after 1 fun _ ↦ True := by
  intro state tokens room
  refine ⟨state.pool.used, state.tokens, ?_, tokens, trivial⟩
  rw [allocate, if_neg (by omega)]

/-- Taking the current token and going on. -/
theorem Yields.advance {second : Unit → Parser β} (goes : kind.isFinal = false)
    (h : Yields (second ()) kinds after nodes good) :
    Yields (Parser.advance >>= second) (kind :: kinds) after nodes good := by
  have both := Yields.bind (yields_advance goes) fun _ _ ↦ h
  rwa [Nat.zero_add] at both

theorem Yields.allocate {second : Nat → Parser β} {location : Location}
    (h : ∀ slot, Yields (second slot) kinds after nodes good) :
    Yields (Parser.allocate location >>= second) kinds after (nodes + 1) good := by
  have both := Yields.bind (yields_allocate location) fun slot _ ↦ h slot
  rwa [List.nil_append, Nat.add_comm] at both

/-- A node is taken for what a parser has made. -/
theorem Yields.node {first : Parser α} {between : α → Prop} {result : α → Nat → β}
    {location : Location} (h₁ : Yields first kinds after nodes between)
    (h₂ : ∀ item slot, between item → good (result item slot)) :
    Yields (do
      let item ← first
      let slot ← Parser.allocate location
      return result item slot) kinds after (nodes + 1) good := by
  have last (item : α) (hitem : between item) :
      Yields (Parser.allocate location >>= fun slot ↦ pure (result item slot)) [] after (0 + 1)
        good := .allocate fun slot ↦ yields_pure (h₂ item slot hitem)
  have both := h₁.bind last
  rwa [List.append_nil, Nat.zero_add] at both

/-! ## Tokens of a kind -/

theorem yields_accept (goes : kind.isFinal = false) :
    Yields (accept kind) [kind] after 0 (· = true) := by
  refine .current rfl fun token here ↦ ?_
  rw [if_pos here]
  exact .advance goes (yields_pure rfl)

theorem yields_accept_other {other : TokenKind} {rest : List TokenKind} (ne : other ≠ kind) :
    Yields (accept kind) [] (other :: rest) 0 (· = false) := by
  refine .current rfl fun token here ↦ ?_
  rw [if_neg (by rw [here]; exact ne)]
  exact yields_pure rfl

theorem yields_expect (goes : kind.isFinal = false) (error : GrammarError) :
    Yields (expect kind error) [kind] after 0 fun _ ↦ True := by
  refine .current rfl fun token here ↦ ?_
  rw [if_pos here]
  exact yields_advance goes

theorem Yields.accept {second : Bool → Parser β} (goes : kind.isFinal = false)
    (h : Yields (second true) kinds after nodes good) :
    Yields (Parser.accept kind >>= second) (kind :: kinds) after nodes good := by
  have both : Yields (Parser.accept kind >>= second) ([kind] ++ kinds) after (0 + nodes) good :=
    (yields_accept goes).bind fun found hfound ↦ hfound ▸ h
  rwa [Nat.zero_add] at both

theorem Yields.acceptOther {second : Bool → Parser β} {other : TokenKind} {rest : List TokenKind}
    (ne : other ≠ kind) (split : kinds ++ after = other :: rest)
    (h : Yields (second false) kinds after nodes good) :
    Yields (Parser.accept kind >>= second) kinds after nodes good := by
  have nothing : Yields (Parser.accept kind) [] (kinds ++ after) 0 (· = false) := by
    rw [split]
    exact yields_accept_other ne
  exact nothing.peek fun found hfound ↦ hfound ▸ h

theorem Yields.expect {second : Unit → Parser β} {error : GrammarError}
    (goes : kind.isFinal = false) (h : Yields (second ()) kinds after nodes good) :
    Yields (Parser.expect kind error >>= second) (kind :: kinds) after nodes good := by
  have both := (yields_expect goes error).bind fun _ _ ↦ h
  rwa [Nat.zero_add] at both

theorem yields_signedNumber (value : Int) (error : GrammarError) :
    Yields (signedNumber error) [.number value] after 0 (· = value) := by
  have number : Yields (Parser.number error) [.number value] after 0 (· = value) := by
    refine .current rfl fun token here ↦ ?_
    simp only [here]
    exact .advance rfl (yields_pure rfl)
  refine .acceptOther (by simp) rfl ?_
  exact number.map fun result hresult ↦ yields_pure hresult

/-! ## Repetitions -/

theorem many_none {item : Parser (Option β)} {consumes : Consumes item}
    {state last : ParserState} (step : item state = .ok (none, last)) :
    many item consumes state = .ok ([], last) := by
  rw [many]
  split
  · rename_i failed
    cases step.symm.trans failed
  · rename_i ended
    cases step.symm.trans ended
    rfl
  · rename_i found
    cases step.symm.trans found

theorem many_some {item : Parser (Option β)} {consumes : Consumes item}
    {state between last : ParserState} {first : β} {rest : List β}
    (step : item state = .ok (some first, between))
    (tail : many item consumes between = .ok (rest, last)) :
    many item consumes state = .ok (first :: rest, last) := by
  rw [many]
  split
  · rename_i failed
    cases step.symm.trans failed
  · rename_i ended
    cases step.symm.trans ended
  · rename_i found
    cases step.symm.trans found
    rw [tail]

/-- Nothing is repeated where there is no item. -/
theorem Yields.manyNone {item : Parser (Option β)} {consumes : Consumes item}
    (h : Yields item [] after 0 (· = none)) :
    Yields (many item consumes) [] after 0 (· = []) := by
  intro state tokens room
  obtain ⟨_, left, step, hleft, rfl⟩ := h state tokens room
  exact ⟨[], left, many_none step, hleft, rfl⟩

/-- An item and what is repeated after it. -/
theorem Yields.manySome {item : Parser (Option β)} {consumes : Consumes item} {some rest : Nat}
    {goodRest : List β → Prop}
    (h₁ : Yields item kinds (more ++ after) some fun result ↦
      ∃ first, result = Option.some first ∧ good first)
    (h₂ : Yields (many item consumes) more after rest goodRest) :
    Yields (many item consumes) (kinds ++ more) after (some + rest) fun results ↦
      ∃ first others, results = first :: others ∧ good first ∧ goodRest others := by
  intro state tokens room
  rw [List.append_assoc] at tokens
  obtain ⟨_, left, step, hleft, first, rfl, hfirst⟩ := h₁ state tokens (by omega)
  obtain ⟨others, last, tail, hlast, hothers⟩ :=
    h₂ ⟨left, state.pool.capacity, state.pool.used + some⟩ hleft
      (by rw [Nat.add_assoc]; exact room)
  refine ⟨first :: others, last, ?_, hlast, first, others, rfl, hfirst, hothers⟩
  rw [many_some step tail, Nat.add_assoc]

/-- From tokens of some kinds the parser makes an error, if there is room up to there. -/
def Refuses {α : Type} (parser : Parser α) (kinds : List TokenKind) (nodes : Nat) : Prop :=
  ∀ state : ParserState, state.tokens.map (·.kind) = kinds →
    ((state.pool.used + nodes : Nat) : Int) ≤ state.pool.capacity →
      ∃ error, parser state = .error error

theorem Refuses.bind {first : Parser α} {second : α → Parser β}
    (h : Refuses first kinds nodes) : Refuses (first >>= second) kinds nodes := by
  intro state tokens room
  obtain ⟨error, step⟩ := h state tokens room
  refine ⟨error, ?_⟩
  change (first state >>= fun pair ↦ second pair.1 pair.2) = _
  rw [step]
  rfl

theorem refuses_refuse (token : Token) (error : GrammarError) :
    Refuses (refuse token error : Parser β) kinds 0 :=
  fun _ _ _ ↦ ⟨_, rfl⟩

theorem Refuses.current {second : Token → Parser β} {rest : List TokenKind}
    (h : ∀ token, token.kind = kind → Refuses (second token) (kind :: rest) nodes) :
    Refuses (Parser.current >>= second) (kind :: rest) nodes := by
  intro state tokens room
  exact h state.current (current_eq tokens) state tokens room

theorem Refuses.following {second : TokenKind → Parser β} {next : TokenKind}
    {rest : List TokenKind} (h : Refuses (second next) (kind :: next :: rest) nodes) :
    Refuses (Parser.following >>= second) (kind :: next :: rest) nodes := by
  intro state tokens room
  show ∃ error, second state.following state = .error error
  rw [following_eq tokens]
  exact h state tokens room

theorem Refuses.advance {second : Unit → Parser β} (goes : kind.isFinal = false)
    (h : Refuses (second ()) kinds nodes) :
    Refuses (Parser.advance >>= second) (kind :: kinds) nodes := by
  intro state tokens room
  obtain ⟨_, left, step, hleft, -⟩ := yields_advance goes state tokens (by omega)
  obtain ⟨error, failed⟩ := h ⟨left, state.pool.capacity, state.pool.used⟩ hleft room
  refine ⟨error, ?_⟩
  change (Parser.advance state >>= fun pair ↦ second pair.1 pair.2) = _
  rw [step]
  exact failed

/-- A node is taken before tokens are refused. -/
theorem Refuses.allocate {second : Nat → Parser β} {location : Location}
    (h : ∀ slot, Refuses (second slot) kinds nodes) :
    Refuses (Parser.allocate location >>= second) kinds (nodes + 1) := by
  intro state tokens room
  obtain ⟨error, step⟩ := h state.pool.used
    ⟨state.tokens, state.pool.capacity, state.pool.used + 1⟩ tokens (by
      show ((state.pool.used + 1 + nodes : Nat) : Int) ≤ state.pool.capacity
      omega)
  refine ⟨error, ?_⟩
  change (Parser.allocate location state >>= fun pair ↦ second pair.1 pair.2) = _
  rw [Parser.allocate, if_neg (by omega)]
  exact step

theorem Refuses.many {item : Parser (Option β)} {consumes : Consumes item}
    (h : Refuses item kinds nodes) : Refuses (many item consumes) kinds nodes := by
  intro state tokens room
  obtain ⟨error, step⟩ := h state tokens room
  refine ⟨error, ?_⟩
  rw [Parser.many]
  split
  · rename_i failed
    cases step.symm.trans failed
    rfl
  · rename_i ended
    cases step.symm.trans ended
  · rename_i found
    cases step.symm.trans found

/-- An item in front of what is refused. -/
theorem Yields.manyRefuses {item : Parser (Option β)} {consumes : Consumes item}
    {some rest : Nat}
    (h₁ : Yields item kinds after some fun result ↦ ∃ first, result = Option.some first)
    (h₂ : Refuses (many item consumes) after rest) :
    Refuses (many item consumes) (kinds ++ after) (some + rest) := by
  intro state tokens room
  obtain ⟨_, left, step, hleft, first, rfl⟩ := h₁ state tokens (by omega)
  obtain ⟨error, tail⟩ := h₂ ⟨left, state.pool.capacity, state.pool.used + some⟩ hleft
    (by rw [Nat.add_assoc]; exact room)
  refine ⟨error, ?_⟩
  rw [Parser.many]
  split
  · rename_i failed
    cases step.symm.trans failed
  · rename_i ended
    cases step.symm.trans ended
  · rename_i found
    cases step.symm.trans found
    rw [tail]

theorem yields_afterComma {item : Parser β} (h : Yields item kinds after nodes good) :
    Yields (afterComma item) (.comma :: kinds) after nodes fun result ↦
      ∃ value, result = some value ∧ good value := by
  refine .current rfl fun token here ↦ ?_
  rw [if_pos here]
  exact .advance rfl (h.map fun value found ↦ yields_pure ⟨value, rfl, found⟩)

theorem yields_noComma {item : Parser β} {rest : List TokenKind} (ends : kind ≠ .comma) :
    Yields (afterComma item) [] (kind :: rest) 0 (· = none) := by
  refine .current rfl fun token here ↦ ?_
  rw [if_neg (by rw [here]; exact ends)]
  exact yields_pure rfl

/-- Items with a comma in front of each of them, up to something else. -/
theorem yields_many {γ δ : Type} {item : Parser β} (shrinks : Shrinks item)
    {writes : γ → List TokenKind} {of : β → δ} {want : γ → δ} {stop : TokenKind}
    {rest : List TokenKind} (ends : stop ≠ .comma) (items : List γ)
    (h : ∀ before first after, items = before ++ first :: after →
      Yields item (writes first)
        (after.flatMap (fun next ↦ .comma :: writes next) ++ stop :: rest) 1
        (of · = want first)) :
    Yields (many (afterComma item) (afterComma_consumes shrinks))
      (items.flatMap fun first ↦ .comma :: writes first) (stop :: rest) items.length
      (·.map of = items.map want) := by
  induction items with
  | nil =>
    refine (yields_noComma ends).manyNone.mono fun results none ↦ ?_
    rw [none]
    rfl
  | cons first others ih =>
    have others' := ih fun before next after split ↦
      h (first :: before) next after (by rw [split]; rfl)
    have both := (yields_afterComma (h [] first others rfl)).manySome others'
    rw [List.flatMap_cons, List.length_cons, Nat.add_comm]
    refine both.mono fun results found ↦ ?_
    obtain ⟨value, values, rfl, hvalue, hvalues⟩ := found
    simp [hvalue, hvalues]

/-- What items write that have commas between them. -/
def listed {γ : Type} (writes : γ → List TokenKind) : List γ → List TokenKind
  | [] => []
  | first :: others => writes first ++ others.flatMap fun next ↦ .comma :: writes next

/-- Items with commas between them, up to something else. -/
theorem yields_commaSeparated {γ δ : Type} {item : Parser β} (shrinks : Shrinks item)
    {writes : γ → List TokenKind} {of : β → δ} {want : γ → δ} {stop : TokenKind}
    {rest : List TokenKind} (ends : stop ≠ .comma) (first : γ) (others : List γ)
    (h : ∀ before next after, first :: others = before ++ next :: after →
      Yields item (writes next)
        (after.flatMap (fun next ↦ .comma :: writes next) ++ stop :: rest) 1 (of · = want next)) :
    Yields (commaSeparated item shrinks) (listed writes (first :: others)) (stop :: rest)
      (first :: others).length (·.map of = (first :: others).map want) := by
  rw [List.length_cons, Nat.add_comm]
  refine .bind (h [] first others rfl) fun value hvalue ↦ ?_
  have tail := yields_many shrinks ends others fun before next after split ↦
    h (first :: before) next after (by rw [split]; rfl)
  exact tail.map fun values hvalues ↦ yields_pure (by simp [hvalue, hvalues])

/-- One item without a comma after it. -/
theorem yields_single {item : Parser β} (shrinks : Shrinks item) {stop : TokenKind}
    {rest : List TokenKind} (ends : stop ≠ .comma)
    (h : Yields item kinds (stop :: rest) nodes good) :
    Yields (commaSeparated item shrinks) kinds (stop :: rest) nodes fun results ↦
      ∃ result, results = [result] ∧ good result := by
  refine h.map fun result found ↦ ?_
  exact (yields_noComma ends).manyNone.map fun others none ↦
    yields_pure ⟨result, by rw [none], found⟩

end

end Parser

end MiniA64
