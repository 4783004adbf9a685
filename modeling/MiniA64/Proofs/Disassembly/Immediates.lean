import MiniA64.Proofs.Assembly.Pulling
import MiniA64.Proofs.Assembly.Writing

/-!
# Immediates are read back

The text of an immediate is two tokens for every integer: a hash, and behind it one number that
takes all the rest. A sign belongs to the number because a digit follows it, and digits of either
radix go on to the end of the text. As an operand the two tokens are the integer again, whether the
tokens are listed first or scanned while they are parsed.
-/

namespace MiniA64

namespace Cursor

open Lexeme

variable {front rest : List Char}

/-- Passing text of one line moves on by as many columns as there are characters. -/
theorem skip_line {line column : Int} {offset : Nat} (inLine : '\n' ∉ front) :
    (⟨front ++ rest, line, column, offset⟩ : Cursor).skip front.length =
      ⟨rest, line, column + front.length, offset + front.length⟩ := by
  induction front generalizing column offset with
  | nil => simp [skip]
  | cons c front ih =>
    have notNewline : c ≠ '\n' := fun newline ↦ inLine (newline ▸ List.mem_cons_self)
    have further : '\n' ∉ front := fun member ↦ inLine (List.mem_cons_of_mem _ member)
    rw [List.length_cons, List.cons_append, skip]
    dsimp only
    rw [if_neg notNewline, ih further, Int.natCast_succ, Int.add_assoc, Nat.add_assoc,
      Int.add_comm 1, Nat.add_comm 1]

/-- An immediate is two tokens where its text stands, and the place after it comes behind them. -/
theorem next_immediate (value : Int) {cursor : Cursor}
    (here : cursor.rest = (Printing.immediate value).toList ++ rest) (ends : Ends rest)
    (file : String) :
    ∃ between, cursor.next file =
        (⟨.hash, cursor.location file, cursor.offset, cursor.offset + 1⟩, between) ∧
      between.next file =
        (⟨.number value, ⟨file, cursor.line, cursor.column + 1⟩, cursor.offset + 1,
            cursor.offset + (Printing.immediate value).length⟩,
          ⟨rest, cursor.line, cursor.column + (Printing.immediate value).length,
            cursor.offset + (Printing.immediate value).length⟩) := by
  obtain ⟨numeral, number, inLine, text⟩ := Written.exists_isToken_number value
  have length : (Printing.immediate value).length = numeral.length + 1 := by
    rw [← String.length_toList, text, List.length_cons]
  obtain ⟨_, line, column, offset⟩ := cursor
  subst here
  rw [text, length]
  have hash := @next_of_isToken _ ['#'] (numeral ++ rest) _ Written.isToken_hash trivial
    ⟨'#' :: numeral ++ rest, line, column, offset⟩ rfl file
  have passed : (⟨'#' :: numeral ++ rest, line, column, offset⟩ : Cursor).skip 1 =
      ⟨numeral ++ rest, line, column + 1, offset + 1⟩ := rfl
  refine ⟨_, hash, ?_⟩
  rw [List.length_singleton, passed, next_of_isToken number ends rfl, skip_line inLine]
  simp only [location, Nat.add_assoc, Int.add_assoc, Nat.add_comm numeral.length, Int.natCast_add,
    Int.natCast_one]

theorem tokens_nil (file : String) (line column : Int) (offset : Nat) :
    (⟨[], line, column, offset⟩ : Cursor).tokens file =
      [⟨.endOfInput, ⟨file, line, column⟩, offset, offset⟩] := by
  rw [tokens]
  exact dif_pos rfl

/-- A source that is nothing but an immediate is listed as its two tokens and the end. -/
theorem tokens_immediate (value : Int) (file : String) :
    (start (Printing.immediate value) 1).tokens file =
      [⟨.hash, ⟨file, 1, 1⟩, 0, 1⟩,
        ⟨.number value, ⟨file, 1, 2⟩, 1, (Printing.immediate value).length⟩,
        ⟨.endOfInput, ⟨file, 1, 1 + (Printing.immediate value).length⟩,
          (Printing.immediate value).length, (Printing.immediate value).length⟩] := by
  have whole : (start (Printing.immediate value) 1).rest =
      (Printing.immediate value).toList ++ [] := (List.append_nil _).symm
  obtain ⟨between, hash, number⟩ := next_immediate value whole ends_nil file
  rw [tokens, dif_neg (by rw [hash]; exact Bool.false_ne_true), hash, tokens,
    dif_neg (by rw [number]; exact Bool.false_ne_true), number, tokens_nil]
  simp [start, location]

end Cursor

namespace TokenReader

theorem ends_immediate (value : Int) (file : String) (line : Int) :
    Ends (new (Printing.immediate value) file line)
      [⟨.hash, ⟨file, line, 1⟩, 0, 1⟩,
        ⟨.number value, ⟨file, line, 2⟩, 1, (Printing.immediate value).length⟩] := by
  have whole : (Cursor.start (Printing.immediate value) line).rest =
      (Printing.immediate value).toList ++ [] := (List.append_nil _).symm
  obtain ⟨between, hash, number⟩ := Cursor.next_immediate value whole Lexeme.ends_nil file
  have second := @Ends.cons (Printing.immediate value) file between [] (by simp [number])
    (by rw [number]; exact ends_nil rfl)
  have both := @Ends.cons (Printing.immediate value) file (.start (Printing.immediate value) line)
    _ (by simp [hash]) (by rw [hash]; exact second)
  rw [hash, number] at both
  simpa [Cursor.start, Cursor.location, new] using both

end TokenReader

namespace Grammar

/-- A hash and a number are an operand, which takes a node. -/
theorem operand_immediate {hash number : Token} {value : Int} (mark : hash.kind = .hash)
    (read : number.kind = .number value) (after : List Token) {pool : NodePool}
    (room : pool.used < pool.capacity) :
    operand ⟨hash :: number :: after, pool⟩ =
      .ok (⟨pool.used, hash.location, .immediate value⟩,
        ⟨after, pool.capacity, pool.used + 1⟩) := by
  obtain ⟨_, place, start, stop⟩ := hash
  obtain ⟨_, place', start', stop'⟩ := number
  subst mark read
  let hash : Token := ⟨.hash, place, start, stop⟩
  let state : ParserState := ⟨hash :: ⟨.number value, place', start', stop'⟩ :: after, pool⟩
  have current : Parser.current state = .ok (hash, state) := rfl
  have kind : operandKind hash state = .ok (.immediate value, ⟨after, pool⟩) := rfl
  have node : Parser.allocate place ⟨after, pool⟩ =
      .ok (pool.used, ⟨after, pool.capacity, pool.used + 1⟩) := if_neg (Int.not_le.mpr room)
  rw [operand, Parser.bind_of_ok current, Parser.bind_of_ok kind, Parser.bind_of_ok node]
  rfl

end Grammar

namespace Lexeme

/-- A text with an `x` in it is the name of a register if it is one of those with a limit. -/
theorem head_of_tooLong {count : Nat} {text : List Char} (long : TooLong count text)
    (mark : 'x' ∈ text) : text.head? = some 'x' := by
  obtain ⟨-, front, known, digits, rfl, -, all⟩ := long
  obtain inFront | digit := List.mem_append.mp mark
  · simp only [List.mem_cons, List.not_mem_nil, or_false] at known
    obtain rfl | rfl | rfl | rfl | rfl | rfl := known
    case inr.inr.inl => rfl
    all_goals exact absurd inFront (by decide)
  · exact absurd (all _ digit) (by decide)

/-- The number of an immediate has one digit, or it is hexadecimal. -/
theorem not_tooLong_immediate {value : Int} {numeral : List Char} {count : Nat}
    (text : (Printing.immediate value).toList = '#' :: numeral) : ¬TooLong count numeral := by
  intro long
  rw [Printing.immediate] at text
  split at text
  · rename_i small
    have digit : ∀ number < 10, (Nat.toDigits 10 number).length = 1 := by decide
    have one := digit value.natAbs (by omega)
    rw [String.toList_append, Written.toList_toString_int] at text
    obtain rfl : (if value < 0 then '-' :: Nat.toDigits 10 value.natAbs
        else Nat.toDigits 10 value.natAbs) = numeral := (List.cons.inj text).2
    obtain ⟨limit, front, -, digits, whole, rfl, -⟩ := long
    have fits : digits.length ≤ (front ++ digits).length := by simp
    rw [← whole] at fits
    have short : digits.length ≤ 2 := by
      split at fits
      · rwa [List.length_cons, one] at fits
      · exact Nat.le_succ_of_le (one ▸ fits)
    rw [Text.digitLimit] at limit
    omega
  · rw [String.toList_append] at text
    obtain rfl : _ = numeral := (List.cons.inj text).2
    have head := head_of_tooLong long (by unfold Text.hex; split <;> simp)
    unfold Text.hex at head
    split at head <;> simp at head

end Lexeme

namespace Pull

/-- A hash and a number are an operand for the parser that scans while it reads, unless a number of
the source has too many digits. -/
theorem operand_of_follows {task : Task} {cursor : Cursor} {state : PullState} {first next : Token}
    {value : Int} (mark : first.kind = .hash) (read : next.kind = .number value)
    {after : List Token} {pool : NodePool} (room : pool.used < pool.capacity)
    (reads : ∀ count, ¬task.Exceeds (.digits count))
    (follows : Follows task cursor ⟨first :: next :: after, pool⟩ state) :
    ∃ last place, operand state =
        some (.ok ⟨pool.used, first.location, .immediate value⟩, last) ∧
      Follows task place ⟨after, ⟨pool.capacity, pool.used + 1⟩⟩ last := by
  obtain ⟨_, location, start, stop⟩ := first
  obtain ⟨_, place, begins, ends⟩ := next
  subst mark read
  have atHash := follows.current_eq
  obtain ⟨second, passed, further⟩ | ⟨count, exceeds, -⟩ := follows.advance (by rw [← atHash]; rfl)
  case inr => exact absurd exceeds (reads count)
  have atNumber := further.current_eq
  obtain ⟨last, taken, done⟩ | ⟨count, exceeds, -⟩ := further.advance (by rw [← atNumber]; rfl)
  case inr => exact absurd exceeds (reads count)
  have hashed : advance state = some (.ok (), second) := by rw [advance, ofTrial, passed]
  have counted : advance second = some (.ok (), last) := by rw [advance, ofTrial, taken]
  have numbered : number .immediateAfterHash second = some (.ok value, last) := by
    rw [number, current_bind, ← atNumber]
    exact run_bind counted
  have signed : signedNumber .immediateAfterHash second = some (.ok value, last) := by
    rw [signedNumber, accept_bind, ← atNumber, if_neg (fun same ↦ TokenKind.noConfusion same)]
    exact run_bind numbered
  have kind : operandKind ⟨.hash, location, start, stop⟩ state =
      some (.ok (.immediate value), last) := by
    refine (run_bind hashed).trans ?_
    show immediateOrSymbol second = _
    rw [immediateOrSymbol, current_bind, ← atNumber]
    exact run_bind signed
  have pool_eq : last.pool = pool := done.pool
  have node : allocate location last = some (.ok pool.used,
      { last with pool := { pool with used := pool.used + 1 } }) := by
    rw [← pool_eq] at room ⊢
    show (if last.pool.capacity ≤ last.pool.used then _ else _ : Pull Nat) _ = _
    rw [if_neg (Int.not_le.mpr room)]
    rfl
  refine ⟨{ last with pool := { pool with used := pool.used + 1 } }, _, ?_, { done with pool := rfl }⟩
  rw [operand, current_bind, ← atHash]
  exact (run_bind kind).trans (run_bind node)

/-- The parser that scans while it reads makes the operand as well, and comes to the end. -/
theorem operand_immediate (value : Int) (file : String) {capacity : Int} (room : 0 < capacity) :
    ∃ last : PullState, (begin >>= fun _ ↦ operand)
          (.new (Printing.immediate value) file capacity) =
        some (.ok ⟨0, ⟨file, 1, 1⟩, .immediate value⟩, last) ∧
      last.current.kind = .endOfInput := by
  let task : Task := ⟨Printing.immediate value, file, capacity, 0⟩
  obtain ⟨numeral, -, -, text⟩ := Written.exists_isToken_number value
  have size : (Printing.immediate value).length = numeral.length + 1 := by
    rw [← String.length_toList, text, List.length_cons]
  have listed : task.tokens = _ := Cursor.tokens_immediate value file
  -- The number is the only token that is longer than one character.
  have reads (count : Nat) : ¬task.Exceeds (.digits count) := by
    rintro ⟨token, member, long⟩
    rw [listed] at member
    have short : (token.start = 1 ∧ token.stop = numeral.length + 1) ∨
        token.stop ≤ token.start + 1 := by
      simp only [List.mem_cons, List.not_mem_nil, or_false] at member
      obtain rfl | rfl | rfl := member <;> simp [size]
    obtain ⟨begins, ends⟩ | short := short
    · have whole : task.source.toList.extract token.start token.stop = numeral := by
        simp [task, text, begins, ends, List.extract]
      rw [whole] at long
      exact Lexeme.not_tooLong_immediate text long
    · obtain ⟨limit, front, -, digits, whole, rfl, -⟩ := long
      have fits := congrArg List.length whole
      simp only [List.extract, List.length_take, List.length_append] at fits
      rw [Text.digitLimit] at limit
      omega
  obtain ⟨begun, begins, follows⟩ | ⟨count, exceeds, -⟩ := task.begin_cases
  case inr => exact absurd exceeds (reads count)
  rw [Task.scanned, listed] at follows
  obtain ⟨last, place, taken, done⟩ := operand_of_follows rfl rfl room reads follows
  exact ⟨last, (run_bind begins).trans taken, by rw [← done.current_eq]; rfl⟩

end Pull

namespace Printing

/--
Wherever the text of an immediate stands and no name or number goes on behind it, the next tokens
are a hash and one number, of the value of the immediate, that covers all the rest of the text. A
source that is nothing but this text has no other tokens. As an operand both parsers make an
immediate of this value from it and come to the end of the source, if there is room for the node.
-/
theorem immediate_reads_back (value : Int) :
    (∀ (file : String) (cursor : Cursor) (rest : List Char),
      cursor.rest = (immediate value).toList ++ rest → Lexeme.Ends rest →
        ∃ between, cursor.next file =
            (⟨.hash, cursor.location file, cursor.offset, cursor.offset + 1⟩, between) ∧
          between.next file =
            (⟨.number value, ⟨file, cursor.line, cursor.column + 1⟩, cursor.offset + 1,
                cursor.offset + (immediate value).length⟩,
              ⟨rest, cursor.line, cursor.column + (immediate value).length,
                cursor.offset + (immediate value).length⟩)) ∧
      (∀ (file : String) (line : Int), TokenReader.Ends (.new (immediate value) file line)
        [⟨.hash, ⟨file, line, 1⟩, 0, 1⟩,
          ⟨.number value, ⟨file, line, 2⟩, 1, (immediate value).length⟩]) ∧
      ∀ (file : String) (capacity : Int), 0 < capacity →
        let operand : Operand := ⟨0, ⟨file, 1, 1⟩, .immediate value⟩
        (∃ last : Token,
          Grammar.operand ⟨(Cursor.start (immediate value) 1).tokens file, ⟨capacity, 0⟩⟩ =
              .ok (operand, ⟨[last], capacity, 1⟩) ∧
            last.kind = .endOfInput) ∧
        ∃ last : PullState,
          (Pull.begin >>= fun _ ↦ Pull.operand) (.new (immediate value) file capacity) =
              some (.ok operand, last) ∧
            last.current.kind = .endOfInput := by
  refine ⟨fun file cursor rest here ends ↦ Cursor.next_immediate value here ends file,
    TokenReader.ends_immediate value, fun file capacity room ↦
      ⟨?_, Pull.operand_immediate value file room⟩⟩
  rw [Cursor.tokens_immediate, Grammar.operand_immediate rfl rfl _ room]
  exact ⟨_, rfl, rfl⟩

/-- A large negative immediate, in front of a bracket and as a source of its own. -/
theorem immediate_reads_back_negative :
    let value : Int := -2 ^ 70
    let text := "#-0x400000000000000000"
    let cursor : Cursor := ⟨text.toList ++ [']'], 3, 9, 40⟩
    immediate value = text ∧
      (∃ between, cursor.next "<input>" = (⟨.hash, ⟨"<input>", 3, 9⟩, 40, 41⟩, between) ∧
        between.next "<input>" =
          (⟨.number value, ⟨"<input>", 3, 10⟩, 41, 62⟩, ⟨[']'], 3, 31, 62⟩)) ∧
      ∃ last : PullState,
        (Pull.begin >>= fun _ ↦ Pull.operand) (.new text "<input>" 4096) =
            some (.ok ⟨0, ⟨"<input>", 1, 1⟩, .immediate value⟩, last) ∧
          last.current.kind = .endOfInput := by
  intro value text cursor
  have written : immediate value = text := by decide +kernel
  obtain ⟨inSource, -, parsed⟩ := immediate_reads_back value
  have length : text.length = 22 := by decide
  rw [written, length] at inSource
  rw [written] at parsed
  have bracket : Lexeme.Ends [']'] := Lexeme.ends_cons (by decide) (by decide) []
  exact ⟨written, inSource "<input>" cursor [']'] rfl bracket,
    (parsed "<input>" 4096 (by decide)).2⟩

end Printing

end MiniA64
