import MiniA64.Assembly.Pull
import MiniA64.Proofs.Assembly.Spans
import MiniA64.Proofs.Assembly.Trial.Reading

/-!
# Parsers that mirror each other

A parser that takes its tokens while they are scanned follows one that has the list of them. The
list ends with the first token that is the end of the input or an error, and behind it the reader is
never asked for another one: no step consumes an error, and none looks ahead from one. So each token
that is scanned, but the last one, takes characters from the source.

What follows so is kept by sequencing, by looking ahead, by consuming and by refusing. The parser
comes to an end where the one with the list does, unless it has stopped before at a limit that the
source exceeds.
-/

namespace MiniA64

namespace Cursor

/-- The next token has so many digits that it is not scanned. -/
def StopsAt (count : Nat) (cursor : Cursor) : Prop :=
  Lexeme.TooLong count
    (cursor.skipTrivia.rest.take (Lexeme.scan cursor.skipTrivia.rest).2)

theorem next_mem_tokens (file : String) (cursor : Cursor) :
    (cursor.next file).1 ∈ cursor.tokens file := by
  rw [tokens]
  split
  · exact List.mem_singleton_self _
  · exact List.mem_cons_self

end Cursor

namespace Pull

/-- A source with the name of its file, and the limits that it is parsed under. -/
structure Task where
  source : String
  file : String
  capacity : Int
  depth : Nat

/-- Labels in a row. -/
inductive Labels : Nat → List Token → Prop
  | none : Labels 0 []
  | more {count : Nat} {before : List Token} {name colon : Token} {spelling : String}
    (labels : Labels count before) (named : name.kind = .identifier spelling)
    (ended : colon.kind = .colon) : Labels (count + 1) (before ++ [name, colon])

namespace Task

def tokens (task : Task) : List Token := (Cursor.start task.source 1).tokens task.file

/-- What goes beyond a limit: a decimal number, or the number of a register, with too many digits; a
number of a token, or the capacity, that cannot be printed; as many labels in a row as there is room
for calls. -/
def Exceeds (task : Task) : Limit → Prop
  | .digits count => ∃ token ∈ task.tokens,
    Lexeme.TooLong count (task.source.toList.extract token.start token.stop)
  | .printing => ¬Text.PrintableNumber task.capacity ∨
    ∃ token ∈ task.tokens, ∃ value, token.kind = .number value ∧ ¬Text.PrintableNumber value
  | .nesting => ∃ labels, Labels task.depth labels ∧ labels <:+: task.tokens

theorem exceeds_of_stopsAt {task : Task} {place : Cursor}
    (tracks : place.Tracks task.source.toList 1)
    (member : (place.next task.file).1 ∈ task.tokens) {count : Nat} (stops : place.StopsAt count) :
    task.Exceeds (.digits count) :=
  ⟨_, member, (tracks.extract_next task.file).2 ▸ stops⟩

end Task

variable {task : Task} {cursor : Cursor} {listed : ParserState} {state : PullState}

/-! ## Steps of the reader -/

/-- The parser stands where the one with the list stands, at a token that is scanned from a place,
and has consumed no token that ends the list. -/
structure Follows (task : Task) (cursor : Cursor) (listed : ParserState) (state : PullState) :
    Prop where
  tokens : listed.tokens = cursor.tokens task.file
  suffix : listed.tokens <:+ task.tokens
  pool : state.pool = listed.pool
  capacity : listed.pool.capacity = task.capacity
  current : state.current = (cursor.next task.file).1
  named : state.reader.file = task.file
  reader : state.reader.StandsAt (cursor.next task.file).2
  last : state.current.kind.isFinal = true → state.reader.peeked = none
  tracks : cursor.Tracks task.source.toList 1
  scanned : state.scanned =
    state.consumed.length + 1 + if state.reader.peeked.isSome then 1 else 0
  room : state.consumed.length + cursor.rest.length ≤ task.source.length
  consumed : ∀ token ∈ state.consumed, token.kind.isFinal = false

theorem scan_cases (state : PullState) :
    state.scan = .ok ((state.reader.cursor.next state.reader.file).1, { state with
        reader := { state.reader with
          cursor := (state.reader.cursor.next state.reader.file).2 }
        scanned := state.scanned + 1 }) ∨
      ∃ count, state.reader.cursor.StopsAt count ∧
        state.scan = .error (.lapse (.limit (.digits count))) := by
  rw [PullState.scan]
  obtain read | ⟨count, long, lapsed⟩ := Trial.scan_cases state.reader.cursor.skipTrivia.rest
  · dsimp only
    rw [read]
    exact .inl rfl
  · dsimp only
    rw [lapsed]
    exact .inr ⟨count, long, rfl⟩

/-- Taking the next token scans it, unless it has been looked at before. -/
theorem next_cases {place : Cursor} (stands : state.reader.StandsAt place) :
    (∃ reader scanned,
      state.next = .ok ((place.next state.reader.file).1, { state with reader, scanned }) ∧
      reader.file = state.reader.file ∧ reader.StandsAt (place.next state.reader.file).2 ∧
      reader.peeked = none ∧
      scanned + (if state.reader.peeked.isSome then 1 else 0) = state.scanned + 1) ∨
    ∃ count, place.StopsAt count ∧ state.next = .error (.lapse (.limit (.digits count))) := by
  obtain ⟨reader, current, pool, scanned, consumed⟩ := state
  cases stands with
  | plain source file =>
    obtain taken | stops := scan_cases ⟨⟨source, file, place, none⟩, current, pool, scanned, consumed⟩
    · exact .inl ⟨_, _, taken, rfl, .plain .., rfl, rfl⟩
    · exact .inr stops
  | ahead => exact .inl ⟨_, _, rfl, rfl, .plain .., rfl, rfl⟩

/-- Looking at the next token scans it, unless it has been looked at before. -/
theorem peek_cases {place : Cursor} (stands : state.reader.StandsAt place) :
    (∃ reader scanned,
      state.peek = .ok ((place.next state.reader.file).1, { state with reader, scanned }) ∧
      reader.file = state.reader.file ∧ reader.StandsAt place ∧ reader.peeked.isSome = true ∧
      scanned + (if state.reader.peeked.isSome then 1 else 0) = state.scanned + 1) ∨
    ∃ count, place.StopsAt count ∧ state.peek = .error (.lapse (.limit (.digits count))) := by
  obtain ⟨reader, current, pool, scanned, consumed⟩ := state
  cases stands with
  | plain source file =>
    rw [PullState.peek]
    dsimp only
    obtain taken | ⟨count, stops, lapsed⟩ :=
      scan_cases ⟨⟨source, file, place, none⟩, current, pool, scanned, consumed⟩
    · rw [taken]
      exact .inl ⟨_, _, rfl, rfl, .ahead .., rfl, rfl⟩
    · rw [lapsed]
      exact .inr ⟨count, stops, rfl⟩
  | ahead => exact .inl ⟨_, _, rfl, rfl, .ahead .., rfl, rfl⟩

namespace Follows

theorem current_eq (follows : Follows task cursor listed state) :
    listed.current = state.current := by
  rw [follows.current, ParserState.current, follows.tokens, Cursor.tokens]
  split <;> rfl

theorem current_mem (follows : Follows task cursor listed state) :
    state.current ∈ task.tokens := by
  refine follows.suffix.mem ?_
  rw [follows.current, follows.tokens]
  exact cursor.next_mem_tokens task.file

/-- A token that does not end the list has the others behind it. -/
theorem tokens_eq_cons (follows : Follows task cursor listed state)
    (going : state.current.kind.isFinal = false) :
    listed.tokens = state.current :: (cursor.next task.file).2.tokens task.file := by
  rw [follows.current] at going ⊢
  rw [follows.tokens, Cursor.tokens]
  exact dif_neg (by rw [going]; exact Bool.false_ne_true)

theorem following_eq (follows : Follows task cursor listed state)
    (going : state.current.kind.isFinal = false) :
    listed.following = ((cursor.next task.file).2.next task.file).1.kind := by
  rw [ParserState.following, follows.tokens_eq_cons going, Cursor.tokens]
  split
  · rename_i shape
    split at shape <;> cases shape <;> rfl
  · rename_i short
    split at short <;> exact absurd rfl (short _ _ _)

/-- Each scanned token but the last has taken a character. -/
theorem scanned_le (follows : Follows task cursor listed state) :
    state.scanned ≤ task.source.length + 1 := by
  have room := follows.room
  rw [follows.scanned]
  cases going : state.current.kind.isFinal with
  | true =>
    rw [follows.last going, Option.isSome_none, if_neg Bool.false_ne_true]
    omega
  | false =>
    rw [follows.current] at going
    have shorter := cursor.length_next_lt task.file going
    split <;> omega

/-- The token behind the current one is a token of the source. -/
theorem exceeds (follows : Follows task cursor listed state)
    (going : state.current.kind.isFinal = false) {count : Nat}
    (stops : (cursor.next task.file).2.StopsAt count) : task.Exceeds (.digits count) := by
  obtain ⟨-, -, -, tracks, -⟩ := follows.tracks.next task.file
  refine Task.exceeds_of_stopsAt tracks (follows.suffix.mem ?_) stops
  rw [follows.tokens_eq_cons going]
  exact List.mem_cons_of_mem _ ((cursor.next task.file).2.next_mem_tokens task.file)

/-- Looking ahead changes nothing but what has been scanned. -/
theorem peek (follows : Follows task cursor listed state)
    (going : state.current.kind.isFinal = false) :
    (∃ token after, state.peek = .ok (token, after) ∧ token.kind = listed.following ∧
      Follows task cursor listed after) ∨
    ∃ count, task.Exceeds (.digits count) ∧
      state.peek = .error (.lapse (.limit (.digits count))) := by
  have following := follows.following_eq going
  have count := follows.scanned
  obtain ⟨reader, scanned, looked, named, stands, ahead, scans⟩ | ⟨count, stops, lapsed⟩ :=
    peek_cases follows.reader
  · rw [follows.named] at looked named
    refine .inl ⟨_, _, looked, following.symm, { follows with
      named
      reader := stands
      last := fun final ↦ absurd (going.symm.trans final) Bool.false_ne_true
      scanned := ?_ }⟩
    rw [if_pos ahead]
    dsimp only at count ⊢
    omega
  · exact .inr ⟨_, follows.exceeds going stops, lapsed⟩

/-- A token that does not end the list is consumed, and the next one takes its place. -/
theorem advance (follows : Follows task cursor listed state)
    (going : state.current.kind.isFinal = false) :
    (∃ after, state.advance = .ok ((), after) ∧
      Follows task (cursor.next task.file).2 listed.advance after) ∨
    ∃ count, task.Exceeds (.digits count) ∧
      state.advance = .error (.lapse (.limit (.digits count))) := by
  have goes : listed.current.kind.isFinal ≠ true := by
    rw [follows.current_eq, going]
    exact Bool.false_ne_true
  have notEnd : state.current.kind ≠ .endOfInput := by
    intro ended
    rw [ended] at going
    cases going
  have moved : listed.advance = { listed with tokens := listed.tokens.tail } := if_neg goes
  have shorter := cursor.length_next_lt task.file (follows.current ▸ going)
  have count := follows.scanned
  have room := follows.room
  obtain ⟨-, -, -, tracks, -⟩ := follows.tracks.next task.file
  rw [PullState.advance, if_neg notEnd, moved]
  obtain ⟨reader, scanned, taken, named, stands, plain, scans⟩ | ⟨count, stops, lapsed⟩ :=
    next_cases follows.reader
  · rw [follows.named] at taken named stands
    rw [taken]
    refine .inl ⟨_, rfl, {
      tokens := congrArg List.tail (follows.tokens_eq_cons going)
      suffix := (List.tail_suffix _).trans follows.suffix
      pool := follows.pool
      capacity := follows.capacity
      current := rfl
      named
      reader := stands
      last := fun _ ↦ plain
      tracks
      scanned := ?_
      room := ?_
      consumed := List.forall_mem_cons.mpr ⟨going, follows.consumed⟩ }⟩
    · rw [plain, Option.isSome_none, if_neg Bool.false_ne_true]
      dsimp only [List.length_cons] at count ⊢
      omega
    · dsimp only [List.length_cons]
      omega
  · exact .inr ⟨_, follows.exceeds going stops, by rw [lapsed]; rfl⟩

end Follows

/-! ## Parsers that mirror each other -/

/-- How the parser with the list ends, and how the other one does. An error token is refused only
where it is the current one, with its own message. At a limit the other one stops before. -/
inductive Settles (task : Task) {α : Type} :
    Except Diagnostic (α × ParserState) → Except Refusal α → PullState → Prop
  | done {cursor : Cursor} {value : α} {listed : ParserState} {last : PullState}
    (follows : Follows task cursor listed last) :
    Settles task (.ok (value, listed)) (.ok value) last
  | refused {cursor : Cursor} {token : Token} {error : GrammarError} {listed : ParserState}
    {last : PullState} (follows : Follows task cursor listed last)
    (lexical : ∀ problem, token.kind = .error problem →
      token = last.current ∧ error = .lexical problem) :
    Settles task (.error ((AssemblyError.grammar error).locatedAt token.location))
      (.error (.grammar token error)) last
  | full {cursor : Cursor} {capacity : Int} {location : Location} {listed : ParserState}
    {last : PullState} (follows : Follows task cursor listed last)
    (printable : Text.PrintableNumber capacity) :
    Settles task (.error ((AssemblyError.nodePoolExhausted capacity).locatedAt location))
      (.error (.noNode capacity location)) last
  | stopped {cursor : Cursor} {limit : Limit} {result : Except Diagnostic (α × ParserState)}
    {listed : ParserState} {last : PullState} (follows : Follows task cursor listed last)
    (exceeds : task.Exceeds limit) :
    Settles task result (.error (.raised (.lapse (.limit limit)))) last

/-- The second parser comes to an end and settles as the first one does or stops at a limit, wherever
it follows it to a state of this kind. -/
def Mirrors (task : Task) {α : Type} (here : ParserState → Prop) (first : Parser α)
    (second : Pull α) : Prop :=
  ∀ cursor listed state, Follows task cursor listed state → here listed →
    ∃ outcome last, second state = some (outcome, last) ∧
      Settles task (first listed) outcome last

/-- A step that comes to an end goes on from there, or gives up for all that comes after it. -/
theorem run_bind {α β : Type} {first : Pull α} {further : α → Pull β}
    {outcome : Except Refusal α} {last : PullState} (ended : first state = some (outcome, last)) :
    (first >>= further) state =
      (ExceptT.bindCont further outcome : StateT PullState Option _) last := by
  show (first state >>= fun pair ↦
    (ExceptT.bindCont further pair.1 : StateT PullState Option _) pair.2) = _
  rw [ended]
  rfl

namespace Mirrors

variable {α β : Type} {here : ParserState → Prop}

theorem pure (value : α) : Mirrors task here (Pure.pure value) (Pure.pure value) :=
  fun _ _ _ follows _ ↦ ⟨_, _, rfl, .done follows⟩

/-- One step after the other, with what the first one says of the state between them. -/
theorem bind_of (between : α → ParserState → Prop) {first : Parser α} {second : Pull α}
    {next : α → Parser β} {further : α → Pull β} (begins : Mirrors task here first second)
    (states : ∀ listed value after, here listed → first listed = .ok (value, after) →
      between value after)
    (ends : ∀ value, Mirrors task (between value) (next value) (further value)) :
    Mirrors task here (first >>= next) (second >>= further) := by
  intro cursor listed state follows holds
  obtain ⟨outcome, last, ended, settles⟩ := begins cursor listed state follows holds
  have listing : (first >>= next) listed =
      (first listed >>= fun pair ↦ next pair.1 pair.2) := rfl
  rw [run_bind ended, listing]
  generalize step : first listed = result at settles
  cases settles with
  | done follows => exact ends _ _ _ last follows (states listed _ _ holds step)
  | refused follows lexical => exact ⟨_, _, rfl, .refused follows lexical⟩
  | full follows printable => exact ⟨_, _, rfl, .full follows printable⟩
  | stopped follows exceeds => exact ⟨_, _, rfl, .stopped follows exceeds⟩

theorem bind {first : Parser α} {second : Pull α} {next : α → Parser β} {further : α → Pull β}
    (begins : Mirrors task here first second)
    (ends : ∀ value, Mirrors task (fun _ ↦ True) (next value) (further value)) :
    Mirrors task here (first >>= next) (second >>= further) :=
  bind_of _ begins (fun _ _ _ _ _ ↦ trivial) ends

theorem ite {condition : Prop} [Decidable condition] {first otherwise : Parser α}
    {second alternatively : Pull α}
    (yes : condition → Mirrors task here first second)
    (no : ¬condition → Mirrors task here otherwise alternatively) :
    Mirrors task here (if condition then first else otherwise)
      (if condition then second else alternatively) := by
  split
  · exact yes ‹_›
  · exact no ‹_›

theorem current {next : Token → Parser β} {further : Token → Pull β}
    (ends : ∀ token ∈ task.tokens,
      Mirrors task (fun listed ↦ here listed ∧ listed.current = token)
        (next token) (further token)) :
    Mirrors task here (Parser.current >>= next) (Pull.current >>= further) := by
  intro cursor listed state follows holds
  obtain ⟨outcome, last, ended, settles⟩ :=
    ends state.current follows.current_mem cursor listed state follows ⟨holds, follows.current_eq⟩
  refine ⟨outcome, last, ended, ?_⟩
  rw [← follows.current_eq] at settles
  exact settles

/-- The token after the current one is known to the parser with the list. -/
theorem following {next : TokenKind → Parser β} {second : Pull β}
    (ends : ∀ kind, Mirrors task (fun listed ↦ here listed ∧ listed.following = kind)
      (next kind) second) :
    Mirrors task here (Parser.following >>= next) second :=
  fun cursor listed state follows holds ↦
    ends listed.following cursor listed state follows ⟨holds, rfl⟩

/-- Looking ahead tells what the parser with the list knows. -/
theorem peek {first : Parser β} {further : Token → Pull β} {kind : TokenKind}
    (going : ∀ listed, here listed →
      listed.current.kind.isFinal = false ∧ listed.following = kind)
    (ends : ∀ token : Token, token.kind = kind → Mirrors task here first (further token)) :
    Mirrors task here first (Pull.peek >>= further) := by
  intro cursor listed state follows holds
  obtain ⟨goes, known⟩ := going listed holds
  rw [follows.current_eq] at goes
  obtain ⟨token, after, looked, same, behind⟩ | ⟨count, exceeds, lapsed⟩ := follows.peek goes
  · obtain ⟨outcome, last, ended, settles⟩ :=
      ends token (same.trans known) cursor listed after behind holds
    refine ⟨outcome, last, ?_, settles⟩
    have run : Pull.peek state = some (.ok token, after) := by
      rw [Pull.peek, ofTrial, looked]
    exact (run_bind run).trans ended
  · have run : Pull.peek state =
        some (.error (.raised (.lapse (.limit (.digits count)))), state) := by
      rw [Pull.peek, ofTrial, lapsed]
    exact ⟨_, _, run_bind run, .stopped follows exceeds⟩

theorem advance (going : ∀ listed, here listed → listed.current.kind.isFinal = false) :
    Mirrors task here Parser.advance Pull.advance := by
  intro cursor listed state follows holds
  have goes := going listed holds
  rw [follows.current_eq] at goes
  obtain ⟨after, moved, behind⟩ | ⟨count, exceeds, lapsed⟩ := follows.advance goes
  · exact ⟨_, _, by rw [Pull.advance, ofTrial, moved], .done behind⟩
  · exact ⟨_, _, by rw [Pull.advance, ofTrial, lapsed], .stopped follows exceeds⟩

/-- The current token is of a kind that does not end the list. -/
theorem advance_at {token : Token} {kind : TokenKind} (known : token.kind = kind)
    (plain : kind.isFinal = false) :
    Mirrors task (fun listed ↦ here listed ∧ listed.current = token)
      Parser.advance Pull.advance :=
  advance fun _ at_ ↦ by rw [at_.2, known, plain]

/-- Consuming a token makes the one behind it the current one. -/
theorem advance_to {kind : TokenKind} {next : Parser β} {further : Pull β}
    (going : ∀ listed, here listed →
      listed.current.kind.isFinal = false ∧ listed.following = kind)
    (ends : Mirrors task (fun listed ↦ listed.current.kind = kind) next further) :
    Mirrors task here (Parser.advance >>= fun _ ↦ next)
      (Pull.advance >>= fun _ ↦ further) := by
  refine bind_of _ (advance fun listed holds ↦ (going listed holds).1) ?_ fun _ ↦ ends
  rintro listed _ _ holds ⟨⟩
  obtain ⟨goes, known⟩ := going listed holds
  rw [ParserState.kind_advance goes, known]

/-- The state has fewer tokens than that. -/
def Below (length : Nat) (listed : ParserState) : Prop := listed.tokens.length < length

/-- A step that consumes a token leaves fewer of them. -/
theorem advance_below {length : Nat} {next : Parser β} {further : Pull β}
    (going : ∀ listed, here listed →
      listed.current.kind.isFinal = false ∧ listed.tokens.length = length)
    (ends : Mirrors task (Below length) next further) :
    Mirrors task here (Parser.advance >>= fun _ ↦ next)
      (Pull.advance >>= fun _ ↦ further) := by
  refine bind_of _ (advance fun listed holds ↦ (going listed holds).1) ?_ fun _ ↦ ends
  rintro listed _ _ holds ⟨⟩
  obtain ⟨goes, rfl⟩ := going listed holds
  exact listed.length_advance_lt goes

/-- A step that gives no token back leaves as few of them. -/
theorem bind_below {length : Nat} {first : Parser α} {second : Pull α} {next : α → Parser β}
    {further : α → Pull β} (shrinks : Parser.Shrinks first)
    (begins : Mirrors task (Below length) first second)
    (ends : ∀ value, Mirrors task (Below length) (next value) (further value)) :
    Mirrors task (Below length) (first >>= next) (second >>= further) :=
  bind_of _ begins (fun _ _ _ below read ↦ Nat.lt_of_le_of_lt (shrinks _ _ _ read) below) ends

/-- What mirrors with every smaller number of tokens mirrors below that number. -/
theorem below {length : Nat} {first : Parser α} {second : Pull α}
    (fewer : ∀ less < length,
      Mirrors task (fun listed ↦ listed.tokens.length = less) first second) :
    Mirrors task (Below length) first second :=
  fun cursor listed state follows holds ↦ fewer _ holds cursor listed state follows rfl

/-- Parsers that mirror each other with every number of tokens do so everywhere. -/
theorem of_length {first : Parser α} {second : Pull α}
    (each : ∀ length,
      Mirrors task (fun listed ↦ listed.tokens.length = length) first second) :
    Mirrors task here first second :=
  fun cursor listed state follows _ ↦ each _ cursor listed state follows rfl

/-- The tokens that are left are the last ones of the source. -/
theorem of_suffix {first : Parser α} {second : Pull α}
    (mirrors : Mirrors task (fun listed ↦ here listed ∧ listed.tokens <:+ task.tokens) first second) :
    Mirrors task here first second :=
  fun cursor listed state follows holds ↦ mirrors cursor listed state follows ⟨holds, follows.suffix⟩

theorem refuse {token : Token} {error : GrammarError}
    (known : ∀ listed, here listed → listed.current = token ∨ token.kind.isFinal = false) :
    Mirrors task here (Parser.refuse token error : Parser α) (Pull.refuse token error) := by
  intro cursor listed state follows holds
  refine ⟨_, _, rfl, .refused follows fun problem lexical ↦ ?_⟩
  rw [lexical]
  refine ⟨?_, rfl⟩
  obtain same | plain := known listed holds
  · exact same.symm.trans follows.current_eq
  · rw [lexical] at plain
    cases plain

/-- Where a limit is exceeded the parser may stop whatever the one with the list does. -/
theorem stop {limit : Limit} {first : Parser α}
    (exceeds : ∀ listed, here listed → task.Exceeds limit) :
    Mirrors task here first (Pull.stop limit) :=
  fun _ _ _ follows holds ↦ ⟨_, _, rfl, .stopped follows (exceeds _ holds)⟩

/-- The message of an error has the text of a token of the source. -/
theorem refuse_text {token : Token} {error : String → GrammarError} (scanned : token ∈ task.tokens)
    (known : ∀ listed, here listed → listed.current = token) :
    Mirrors task here (Parser.refuse token (error token.text) : Parser α)
      (Pull.text token >>= fun found ↦ Pull.refuse token (error found)) := by
  have refused : Mirrors task here (Parser.refuse token (error token.text) : Parser α)
      (Pull.refuse token (error token.text)) := .refuse fun listed at_ ↦ .inl (known listed at_)
  unfold Pull.text
  split
  · rename_i value number
    split
    · exact refused
    · exact .stop fun _ _ ↦ .inr ⟨token, scanned, value, number, ‹_›⟩
  · exact refused

theorem allocate (location : Location) :
    Mirrors task here (Parser.allocate location) (Pull.allocate location) := by
  intro cursor listed state follows holds
  have stepped : Pull.allocate location state =
      (if state.pool.capacity ≤ state.pool.used then
        if Text.PrintableNumber state.pool.capacity then
          throw (.noNode state.pool.capacity location)
        else Pull.stop .printing
      else do
        set { state with pool := { state.pool with used := state.pool.used + 1 } }
        return state.pool.used : Pull Nat) state := rfl
  unfold Parser.allocate
  rw [stepped, follows.pool]
  split
  · split
    · exact ⟨_, _, rfl, .full follows ‹_›⟩
    · rename_i long
      rw [follows.capacity] at long
      exact ⟨_, _, rfl, .stopped follows (.inl long)⟩
  · refine ⟨_, _, rfl, .done { follows with pool := ?_ }⟩
    rfl

end Mirrors

end Pull

end MiniA64
