import MiniA64.Proofs.Assembly.Lexing

/-!
# Tokens of a source

A reader that stands at a place in a text takes a token and stands behind it. Every token but the
end of the input takes text away, with one exception: a digit of another script begins a number
that has no digit, and the reader stays where it is. So the tokens of a source end with the end of
the input, and are no more than its characters and one, or they come to such a digit and repeat its
error for ever.
-/

namespace MiniA64

namespace Lexeme

/-- A digit that begins a number and is no digit of one. -/
def isForeignDigit (c : Char) : Bool := Text.isDigit c && !isAsciiDigit c

/-- A number has a mark of two characters in front of its digits or is decimal. -/
theorem radixOf_cases (text : List Char) : radixOf text = (10, 0) ∨ (radixOf text).2 = 2 := by
  unfold radixOf
  split
  · split
    · exact .inr rfl
    · split
      · exact .inr rfl
      · exact .inl rfl
  · exact .inl rfl

/-- A number takes nothing if it begins with a digit of another script. -/
theorem numberOf_foreign (negative : Bool) {c : Char} (rest : List Char)
    (foreign : isAsciiDigit c = false) :
    numberOf negative (c :: rest) = (.error .expectedBinaryDigits, 0) := by
  have decimal : radixOf (c :: rest) = (10, 0) := by
    unfold radixOf
    split
    · rename_i equal
      cases equal
      cases foreign
    · rfl
  have none : ((c :: rest).drop 0).takeWhile (isDigitOf 10) = [] := by
    simp [isDigitOf, foreign]
  simp only [numberOf, decimal, none]
  rfl

theorem numberOf_pos_of_digit (negative : Bool) {c : Char} (rest : List Char)
    (digit : isAsciiDigit c = true) : 0 < (numberOf negative (c :: rest)).2 := by
  cases final : (numberOf negative (c :: rest)).1.isFinal with
  | false => exact numberOf_pos negative _ final
  | true =>
    simp only [numberOf] at final ⊢
    split at final
    · rename_i empty
      rw [if_pos empty]
      -- A decimal number has its first digit, so there has to be a mark.
      obtain decimal | marked := radixOf_cases (c :: rest)
      · rw [decimal] at empty
        simp [isDigitOf, digit] at empty
      · simp [marked]
    · cases final

theorem numberOf_ne_endOfInput (negative : Bool) (text : List Char) :
    (numberOf negative text).1 ≠ .endOfInput := by
  obtain ⟨_, kind⟩ | ⟨_, kind⟩ := numberOf_cases negative text <;> rw [kind] <;>
    exact TokenKind.noConfusion

theorem ofPunctuation?_ne_endOfInput {c : Char} {kind : TokenKind}
    (mark : TokenKind.ofPunctuation? c = some kind) : kind ≠ .endOfInput := by
  unfold TokenKind.ofPunctuation? at mark
  split at mark <;> cases mark <;> exact TokenKind.noConfusion

/-- Names begin with letters and underscores, which are no digits. -/
theorem isDigit_of_isNameStart {c : Char} (start : isNameStart c = true) :
    Text.isDigit c = false := by
  have ascii : c.toNat < 128 := isNameChar_lt (by rw [isNameChar, start, Bool.true_or])
  revert start
  exact of_ascii ascii (by decide)

/-- A token takes nothing only at the end of the text and before a digit of another script. -/
theorem scan_cases (text : List Char) :
    (text = [] ∧ scan text = (.endOfInput, 0)) ∨
      (text.head?.any isForeignDigit = true ∧ scan text = (.error .expectedBinaryDigits, 0)) ∨
      (text.head?.any isForeignDigit = false ∧ (scan text).1 ≠ .endOfInput ∧
        0 < (scan text).2) := by
  obtain _ | ⟨c, rest⟩ := text
  · exact .inl ⟨rfl, rfl⟩
  refine .inr ?_
  simp only [List.head?_cons, Option.any_some, scan]
  split
  · rename_i newline
    rw [newline]
    exact .inr ⟨rfl, TokenKind.noConfusion, Nat.one_pos⟩
  split
  · rename_i start
    refine .inr ⟨?_, TokenKind.noConfusion, nameOf_ne_nil start⟩
    rw [isForeignDigit, isDigit_of_isNameStart start, Bool.false_and]
  split
  · rename_i digit
    rw [isForeignDigit, digit, Bool.true_and]
    cases ascii : isAsciiDigit c with
    | true => exact .inr ⟨rfl, numberOf_ne_endOfInput _ _, numberOf_pos_of_digit _ _ ascii⟩
    | false => exact .inl ⟨rfl, numberOf_foreign _ _ ascii⟩
  rename_i noDigit
  have plain : isForeignDigit c = false := by
    rw [isForeignDigit, (Bool.not_eq_true _).mp noDigit, Bool.false_and]
  refine .inr ⟨plain, ?_⟩
  split
  · exact ⟨numberOf_ne_endOfInput _ _, Nat.succ_pos _⟩
  split
  · split
    · exact ⟨TokenKind.noConfusion, Nat.succ_pos _⟩
    · exact ⟨TokenKind.noConfusion, Nat.succ_pos _⟩
  split
  · rename_i mark
    exact ⟨ofPunctuation?_ne_endOfInput mark, Nat.one_pos⟩
  · exact ⟨TokenKind.noConfusion, Nat.one_pos⟩

theorem visible_of_isForeignDigit {c : Char} (h : isForeignDigit c = true) :
    c ≠ ' ' ∧ c ≠ '\t' ∧ c ≠ '\r' ∧ c ≠ ';' ∧ c ≠ '/' := by
  refine ⟨?_, ?_, ?_, ?_, ?_⟩ <;> rintro rfl <;> revert h <;> decide

end Lexeme

namespace Cursor

variable (file : String) (cursor : Cursor)

/-- The place lies in a text: what is left is what follows the offset. -/
def Within (text : List Char) (cursor : Cursor) : Prop := cursor.rest = text.drop cursor.offset

theorem Within.skip {text : List Char} {cursor : Cursor} (within : cursor.Within text)
    (count : Nat) : (cursor.skip count).Within text := by
  induction count generalizing cursor with
  | zero => exact within
  | succ count ih =>
    obtain ⟨_ | ⟨c, rest⟩, line, column, offset⟩ := cursor
    · exact within
    have tail : rest = text.drop (offset + 1) := by
      rw [← List.tail_drop, ← show c :: rest = text.drop offset from within]
      rfl
    simp only [Cursor.skip]
    split
    · exact ih tail
    · exact ih tail

theorem length_skipTrivia_le : cursor.skipTrivia.rest.length ≤ cursor.rest.length := by
  rw [rest_skipTrivia, List.length_drop]
  omega

/-- A digit of another script is no blank. -/
theorem skipTrivia_of_foreign {cursor : Cursor}
    (foreign : cursor.rest.head?.any Lexeme.isForeignDigit = true) :
    cursor.skipTrivia = cursor := by
  obtain ⟨_ | ⟨c, rest⟩, line, column, offset⟩ := cursor
  · cases foreign
  · rw [skipTrivia, Lexeme.triviaLength_eq_zero rest (Lexeme.visible_of_isForeignDigit foreign)]
    rfl

/-- A token is the end of the input, or takes text, or is the error of a digit of another script,
which takes nothing. -/
theorem next_cases :
    (cursor.skipTrivia.rest = [] ∧ (cursor.next file).1.kind = .endOfInput) ∨
      (cursor.skipTrivia.rest.head?.any Lexeme.isForeignDigit = true ∧
        cursor.next file = (⟨.error .expectedBinaryDigits, cursor.skipTrivia.location file,
          cursor.skipTrivia.offset, cursor.skipTrivia.offset⟩, cursor.skipTrivia)) ∨
      (cursor.skipTrivia.rest.head?.any Lexeme.isForeignDigit = false ∧
        (cursor.next file).1.kind ≠ .endOfInput ∧
        (cursor.next file).2.rest.length < cursor.skipTrivia.rest.length) := by
  obtain ⟨empty, scanned⟩ | ⟨foreign, scanned⟩ | ⟨plain, kind, taken⟩ :=
    Lexeme.scan_cases cursor.skipTrivia.rest
  · exact .inl ⟨empty, by rw [kind_next, scanned]⟩
  · refine .inr (.inl ⟨foreign, ?_⟩)
    simp only [next, scanned]
    rfl
  · refine .inr (.inr ⟨plain, kind, ?_⟩)
    have nonempty : cursor.skipTrivia.rest ≠ [] := by
      intro empty
      rw [empty] at kind
      exact kind rfl
    have positive := List.length_pos_iff.mpr nonempty
    rw [rest_next, List.length_drop]
    omega

/-- In front of a digit of another script a token is its error, and the place stays. -/
theorem next_of_foreign {cursor : Cursor}
    (foreign : cursor.rest.head?.any Lexeme.isForeignDigit = true) :
    cursor.next file = (⟨.error .expectedBinaryDigits, cursor.location file, cursor.offset,
      cursor.offset⟩, cursor) := by
  have stays := skipTrivia_of_foreign foreign
  obtain ⟨empty, -⟩ | ⟨-, stands⟩ | ⟨plain, -⟩ := cursor.next_cases file
  · rw [stays] at empty
    rw [empty] at foreign
    cases foreign
  · rw [stands, stays]
  · rw [stays, foreign] at plain
    cases plain

/-- A token other than the end of the input takes text unless a digit of another script is next. -/
theorem length_next_lt_iff (goes : (cursor.next file).1.kind ≠ .endOfInput) :
    (cursor.next file).2.rest.length < cursor.rest.length ↔
      cursor.rest.head?.any Lexeme.isForeignDigit = false := by
  cases here : cursor.rest.head?.any Lexeme.isForeignDigit with
  | true =>
    rw [next_of_foreign file here]
    simp
  | false =>
    refine iff_of_true ?_ rfl
    have shorter := cursor.length_skipTrivia_le
    obtain ⟨-, ended⟩ | ⟨foreign, stands⟩ | ⟨-, -, taken⟩ := cursor.next_cases file
    · exact absurd ended goes
    · rw [stands]
      refine Nat.lt_of_le_of_ne shorter fun same ↦ ?_
      -- A digit that is not the next character has blanks in front of it.
      have stays : cursor.skipTrivia.rest = cursor.rest := by
        rw [rest_skipTrivia] at same ⊢
        exact (List.drop_sublist _ _).eq_of_length same
      rw [stays, here] at foreign
      cases foreign
    · omega

end Cursor

namespace TokenReader

variable (source file : String)

/-- A reader in front of a digit of another script repeats its error. -/
theorem tokenize_of_foreign {cursor : Cursor}
    (foreign : cursor.rest.head?.any Lexeme.isForeignDigit = true) (count : Nat) :
    tokenize count ⟨source, file, cursor, none⟩ =
      List.replicate count ⟨.error .expectedBinaryDigits, cursor.location file, cursor.offset,
        cursor.offset⟩ := by
  induction count with
  | zero => rfl
  | succ count ih =>
    simp only [tokenize, TokenReader.next, Cursor.next_of_foreign file foreign, ih]
    rfl

/-- The tokens of a reader are these and then the end of the input. -/
def Ends (reader : TokenReader) (tokens : List Token) : Prop :=
  ∃ last : Token, last.kind = .endOfInput ∧
    ∀ count, reader.tokenize count = (tokens ++ [last]).take count

/-- The tokens of a reader are these and then, without an end, the error of a digit of another
script, which is an empty token. -/
def Repeats (reader : TokenReader) (text : List Char) (tokens : List Token) : Prop :=
  ∃ stuck : Token, stuck.kind = .error .expectedBinaryDigits ∧ stuck.stop = stuck.start ∧
    text[stuck.start]?.any Lexeme.isForeignDigit = true ∧
    ∀ count, reader.tokenize (tokens.length + count) = tokens ++ List.replicate count stuck

variable {source file}

theorem tokenize_succ {cursor : Cursor} (goes : (cursor.next file).1.kind ≠ .endOfInput)
    (count : Nat) :
    tokenize (count + 1) ⟨source, file, cursor, none⟩ =
      (cursor.next file).1 :: tokenize count ⟨source, file, (cursor.next file).2, none⟩ := by
  simp only [tokenize, TokenReader.next]
  exact if_neg goes

theorem ends_nil {cursor : Cursor} (ended : (cursor.next file).1.kind = .endOfInput) :
    Ends ⟨source, file, cursor, none⟩ [] := by
  refine ⟨_, ended, fun count ↦ ?_⟩
  cases count with
  | zero => rfl
  | succ count => simp [tokenize, TokenReader.next, ended]

theorem Ends.cons {cursor : Cursor} {tokens : List Token}
    (goes : (cursor.next file).1.kind ≠ .endOfInput)
    (ends : Ends ⟨source, file, (cursor.next file).2, none⟩ tokens) :
    Ends ⟨source, file, cursor, none⟩ ((cursor.next file).1 :: tokens) := by
  obtain ⟨last, kind, all⟩ := ends
  refine ⟨last, kind, fun count ↦ ?_⟩
  cases count with
  | zero => rfl
  | succ count => rw [tokenize_succ goes, all, List.cons_append, List.take_succ_cons]

theorem Repeats.cons {cursor : Cursor} {text : List Char} {tokens : List Token}
    (goes : (cursor.next file).1.kind ≠ .endOfInput)
    (repeats : Repeats ⟨source, file, (cursor.next file).2, none⟩ text tokens) :
    Repeats ⟨source, file, cursor, none⟩ text ((cursor.next file).1 :: tokens) := by
  obtain ⟨stuck, kind, empty, digit, all⟩ := repeats
  refine ⟨stuck, kind, empty, digit, fun count ↦ ?_⟩
  rw [List.length_cons, Nat.add_right_comm, tokenize_succ goes, all, List.cons_append]

/-- The tokens of a reader at a place in a text come to the end of the text or to a digit of
another script. Each token in front of that takes a character at least. -/
theorem tokenize_cases {text : List Char} {cursor : Cursor} (within : cursor.Within text) :
    ∃ tokens : List Token, (∀ token ∈ tokens, token.kind ≠ .endOfInput) ∧
      (Ends ⟨source, file, cursor, none⟩ tokens ∧ tokens.length ≤ cursor.rest.length ∨
        Repeats ⟨source, file, cursor, none⟩ text tokens ∧ tokens.length < cursor.rest.length) := by
  induction left : cursor.rest.length using Nat.strongRecOn generalizing cursor with
  | ind length ih =>
    subst left
    by_cases ended : (cursor.next file).1.kind = .endOfInput
    · exact ⟨[], by simp, .inl ⟨ends_nil ended, Nat.zero_le _⟩⟩
    cases here : cursor.rest.head?.any Lexeme.isForeignDigit with
    | true =>
      have nonempty : cursor.rest ≠ [] := by
        intro empty
        rw [empty] at here
        cases here
      have digit : text[cursor.offset]?.any Lexeme.isForeignDigit = true := by
        rw [within, List.head?_drop] at here
        exact here
      refine ⟨[], by simp, .inr ⟨⟨⟨.error .expectedBinaryDigits, cursor.location file,
        cursor.offset, cursor.offset⟩, rfl, rfl, digit, fun count ↦ ?_⟩,
        List.length_pos_iff.mpr nonempty⟩⟩
      rw [List.length_nil, Nat.zero_add, tokenize_of_foreign source file here, List.nil_append]
    | false =>
      have shorter := (cursor.length_next_lt_iff file ended).mpr here
      have after : (cursor.next file).2.Within text := (within.skip _).skip _
      obtain ⟨tokens, kinds, outcome⟩ := ih _ shorter after rfl
      refine ⟨(cursor.next file).1 :: tokens, ?_, ?_⟩
      · rintro token (_ | ⟨_, member⟩)
        · exact ended
        · exact kinds token member
      · obtain ⟨ends, few⟩ | ⟨repeats, few⟩ := outcome
        · exact .inl ⟨ends.cons ended, by rw [List.length_cons]; omega⟩
        · exact .inr ⟨repeats.cons ended, by rw [List.length_cons]; omega⟩

end TokenReader

end MiniA64
