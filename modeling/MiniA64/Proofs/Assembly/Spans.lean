import MiniA64.Proofs.Assembly.Tokenizing

/-!
# Tokens and the text they stand for

A reader gives the tokens of its source in their order, however often it is asked for the next one
without taking it. Between two tokens there are only blanks and comments, and the text that a token
covers spells it: a name as it stands, a string between its quotes, a number in its radix. The line
and the column of a token are counted along the way, and come to what the text in front of it says.
-/

namespace MiniA64

/-! ## Numerals -/

namespace Numeral

def digit? (c : Char) : Option Nat :=
  ['0', '1', '2', '3', '4', '5', '6', '7', '8', '9', 'a', 'b', 'c', 'd', 'e', 'f'].idxOf? c.toLower

/-- The number that digits denote, the first one counting most. -/
def place (radix : Nat) : List Nat → Nat
  | [] => 0
  | digit :: rest => digit * radix ^ rest.length + place radix rest

def positional? (radix : Nat) (text : List Char) : Option Nat :=
  match text.mapM digit? with
  | none => none
  | some digits =>
    if digits ≠ [] ∧ ∀ digit ∈ digits, digit < radix then some (place radix digits) else none

/-- Hexadecimal and binary numerals have a mark in front of their digits. -/
def natural? : List Char → Option Nat
  | '0' :: 'x' :: digits | '0' :: 'X' :: digits => positional? 16 digits
  | '0' :: 'b' :: digits | '0' :: 'B' :: digits => positional? 2 digits
  | digits => positional? 10 digits

/-- The integer that a text denotes. -/
def integer? : List Char → Option Int
  | '-' :: numeral => (natural? numeral).map fun value ↦ -(value : Int)
  | numeral => (natural? numeral).map fun value ↦ (value : Int)

end Numeral

/-! ## Spans -/

namespace Source

/-- Blanks and perhaps a comment, which goes up to the end of its line, and the text after them. -/
inductive Gap : List Char → List Char → Prop
  | empty (rest : List Char) : Gap [] rest
  | blank {c : Char} {gap rest : List Char} (blank : c = ' ' ∨ c = '\t' ∨ c = '\r')
    (further : Gap gap rest) : Gap (c :: gap) rest
  | comment {mark body rest : List Char} (marks : mark = [';'] ∨ mark = ['/', '/'])
    (inLine : '\n' ∉ body) (ends : rest = [] ∨ rest.head? = some '\n') : Gap (mark ++ body) rest

/-- The column of the place after a text: its distance from the last newline, counted from one. -/
def columnAfter (text : List Char) : Nat := (text.reverse.takeWhile (· ≠ '\n')).length + 1

end Source

/-- What the text that a token covers says about its kind and value. -/
def TokenKind.Spelled : TokenKind → List Char → Prop
  | endOfInput, span => span = []
  | newline, span => span = ['\n']
  | identifier name, span => span = name.toList
  | number value, span => Numeral.integer? span = some value
  | string raw, span => span = '"' :: raw.toList ++ ['"']
  | error _, _ => True
  | mark, span => span = mark.text.toList

/-- A token as a text that begins on some line has it. -/
structure Token.Faithful (text : List Char) (file : String) (line : Int) (token : Token) :
    Prop where
  ordered : token.start ≤ token.stop
  inside : token.stop ≤ text.length
  file : token.location.file = file
  line : token.location.line = line + (text.take token.start).count '\n'
  column : token.location.column = Source.columnAfter (text.take token.start)
  spelled : token.kind.Spelled (text.extract token.start token.stop)

/-- The tokens stand one after the other from an offset on, with nothing but gaps between them. -/
def Source.Consecutive (text : List Char) : Nat → List Token → Prop
  | _, [] => True
  | stop, token :: rest =>
    stop ≤ token.start ∧ Gap (text.extract stop token.start) (text.drop token.start) ∧
      Consecutive text token.stop rest

namespace TokenReader

inductive Call
  | next
  | peek
  deriving DecidableEq, Repr

/-- The tokens that a reader gives up in a sequence of calls. -/
def taken : List Call → TokenReader → List Token
  | [], _ => []
  | .next :: calls, reader => reader.next.1 :: taken calls reader.next.2
  | .peek :: calls, reader => taken calls reader.peek.2

end TokenReader

namespace Numeral

open Lexeme

theorem digit?_of_isDigitOf {radix : Nat} (known : radix = 2 ∨ radix = 10 ∨ radix = 16) {c : Char}
    (digit : isDigitOf radix c = true) : digit? c = some (digitValue c) ∧ digitValue c < radix := by
  have ascii := isNameChar_lt (isNameChar_of_isDigitOf digit)
  revert digit
  obtain rfl | rfl | rfl := known <;> exact of_ascii ascii (by decide)

/-- Items are read if each of them is. -/
theorem mapM_eq_ite {α β : Type} {readable : α → Prop} [DecidablePred readable] {read : α → Option β}
    {result : α → β} {items : List α}
    (each : ∀ item ∈ items, read item = if readable item then some (result item) else none) :
    items.mapM read =
      if ∀ item ∈ items, readable item then some (items.map result) else none := by
  induction items with
  | nil => rfl
  | cons item rest ih =>
    obtain ⟨first, others⟩ := List.forall_mem_cons.mp each
    rw [List.mapM_cons, first, ih others]
    simp only [List.forall_mem_cons]
    by_cases here : readable item
    · by_cases later : ∀ item ∈ rest, readable item
      · rw [if_pos here, if_pos later, if_pos ⟨here, later⟩]
        rfl
      · rw [if_pos here, if_neg later, if_neg (mt And.right later)]
        rfl
    · rw [if_neg here, if_neg (mt And.left here)]
      rfl

theorem mapM_eq_map {α β : Type} {read : α → Option β} {result : α → β} {items : List α}
    (each : ∀ item ∈ items, read item = some (result item)) :
    items.mapM read = some (items.map result) := by
  have all := @mapM_eq_ite _ _ (fun _ ↦ True) _ read result items (by simpa using each)
  simpa using all

theorem foldl_digits (radix start : Nat) (text : List Char) :
    text.foldl (fun value c ↦ radix * value + digitValue c) start =
      start * radix ^ text.length + place radix (text.map digitValue) := by
  induction text generalizing start with
  | nil => simp [place]
  | cons c rest ih =>
    rw [List.foldl_cons, ih, List.map_cons, place, List.length_map, List.length_cons, Nat.pow_succ,
      Nat.add_mul, Nat.add_assoc, Nat.mul_comm radix start, Nat.mul_assoc,
      Nat.mul_comm radix]

theorem positional?_eq {radix : Nat} (known : radix = 2 ∨ radix = 10 ∨ radix = 16)
    {text : List Char} (some : text ≠ []) (digits : ∀ c ∈ text, isDigitOf radix c = true) :
    positional? radix text = .some (valueOf radix text) := by
  have value : valueOf radix text = place radix (text.map digitValue) := by
    rw [valueOf, foldl_digits, Nat.zero_mul, Nat.zero_add]
  have small : ∀ digit ∈ text.map digitValue, digit < radix := by
    intro digit member
    obtain ⟨c, of, rfl⟩ := List.mem_map.mp member
    exact (digit?_of_isDigitOf known (digits c of)).2
  rw [positional?, mapM_eq_map fun c of ↦ (digit?_of_isDigitOf known (digits c of)).1, value]
  exact if_pos ⟨mt List.map_eq_nil_iff.mp some, small⟩

/-- A sign is no digit. -/
theorem positional?_minus (radix : Nat) (text : List Char) :
    positional? radix ('-' :: text) = none := by
  rw [positional?, List.mapM_cons]
  rfl

/-- Digits without a mark are a decimal numeral. -/
theorem natural?_decimal {text : List Char} (digits : ∀ c ∈ text, isAsciiDigit c = true) :
    natural? text = positional? 10 text := by
  unfold natural?
  split
  case h_1 | h_2 | h_3 | h_4 =>
    have mark := digits _ (List.mem_cons_of_mem _ List.mem_cons_self)
    cases mark
  case h_5 => rfl

theorem take_length_takeWhile (p : Char → Bool) (text : List Char) :
    text.take (text.takeWhile p).length = text.takeWhile p :=
  (List.prefix_iff_eq_take.mp (List.takeWhile_prefix p)).symm

/-- A mark and the digits of its radix denote the value of the digits. -/
theorem natural?_take {text : List Char} {radix mark : Nat} (marked : radixOf text = (radix, mark))
    (some : (text.drop mark).takeWhile (isDigitOf radix) ≠ []) :
    natural? (text.take (mark + ((text.drop mark).takeWhile (isDigitOf radix)).length)) =
      .some (valueOf radix ((text.drop mark).takeWhile (isDigitOf radix))) := by
  have digits : ∀ c ∈ (text.drop mark).takeWhile (isDigitOf radix), isDigitOf radix c = true :=
    List.all_eq_true.mp List.all_takeWhile
  have value (known : radix = 2 ∨ radix = 10 ∨ radix = 16) := positional?_eq known some digits
  rw [List.take_add, take_length_takeWhile]
  have decimal (plain : (radix, mark) = (10, 0)) :
      natural? (text.take mark ++ (text.drop mark).takeWhile (isDigitOf radix)) =
        .some (valueOf radix ((text.drop mark).takeWhile (isDigitOf radix))) := by
    cases plain
    rw [List.take_zero, List.nil_append, ← value (.inr (.inl rfl))]
    exact natural?_decimal digits
  unfold radixOf at marked
  split at marked
  · rename_i letter rest
    split at marked
    · rename_i hexadecimal
      cases marked
      rw [← value (.inr (.inr rfl))]
      obtain rfl | rfl : letter = 'x' ∨ letter = 'X' := by simpa using hexadecimal
      · rfl
      · rfl
    split at marked
    · rename_i binary
      cases marked
      rw [← value (.inl rfl)]
      obtain rfl | rfl : letter = 'b' ∨ letter = 'B' := by simpa using binary
      · rfl
      · rfl
    · exact decimal marked.symm
  · exact decimal marked.symm

/-- A numeral without a sign does not begin with one. -/
theorem integer?_of_natural? {text : List Char} {value : Nat}
    (denoted : natural? text = some value) : integer? text = some (value : Int) := by
  unfold integer?
  split
  · rename_i numeral
    have undenoted : natural? ('-' :: numeral) = none := positional?_minus 10 numeral
    rw [undenoted] at denoted
    cases denoted
  · rw [denoted]
    rfl

end Numeral

/-! ## Tokens from the start of a text -/

namespace Lexeme

theorem mark_le (text : List Char) : (radixOf text).2 ≤ text.length := by
  unfold radixOf
  split
  · simp only [List.length_cons]
    split
    · omega
    split <;> omega
  · exact Nat.zero_le _

/-- A number takes a part of its text, and has the value that this part denotes. -/
theorem numberOf_spelled (negative : Bool) (text : List Char) :
    (numberOf negative text).2 ≤ text.length ∧
      ((∃ error, (numberOf negative text).1 = .error error) ∨
        ∃ magnitude : Nat,
          Numeral.natural? (text.take (numberOf negative text).2) = some magnitude ∧
          (numberOf negative text).1 =
            .number (if negative then -(magnitude : Int) else magnitude)) := by
  have mark := mark_le text
  simp only [numberOf]
  split
  · exact ⟨mark, .inl ⟨_, rfl⟩⟩
  · rename_i some
    refine ⟨?_, .inr ⟨_, Numeral.natural?_take rfl ?_, rfl⟩⟩
    · have few := (List.takeWhile_prefix (isDigitOf (radixOf text).1)
        (l := text.drop (radixOf text).2)).length_le
      rw [List.length_drop] at few
      dsimp only
      omega
    · exact fun none ↦ some (List.isEmpty_iff.mpr none)

theorem nameOf_prefix (text : List Char) : nameOf text <+: text := by
  have whole := List.takeWhile_append_dropWhile (p := isNameChar) (l := text)
  simp only [nameOf]
  split
  · rename_i branch
    have dot : (text.dropWhile isNameChar).head? = some '.' := by
      simpa using (Bool.and_eq_true_iff.mp branch).2
    obtain ⟨rest, suffix⟩ := List.head?_eq_some_iff.mp dot
    rw [suffix] at whole ⊢
    conv => rhs; rw [← whole]
    refine (List.prefix_append_right_inj _).mpr ?_
    exact List.cons_prefix_cons.mpr ⟨rfl, List.takeWhile_prefix _⟩
  · exact List.takeWhile_prefix _

/-- A body is a part of its text, with the closing quote behind it if it is closed. -/
theorem bodyOf_prefix (text : List Char) :
    (bodyOf text).1 ++ (if (bodyOf text).2 then ['"'] else []) <+: text := by
  fun_induction bodyOf text with
  | case1 => exact List.prefix_rfl
  | case2 => simp
  | case3 c rest newline body closed same ih =>
    rw [same] at ih
    exact List.cons_prefix_cons.mpr ⟨rfl, List.cons_prefix_cons.mpr ⟨rfl, ih⟩⟩
  | case4 => simp
  | case5 => simp
  | case6 c rest escape newline quote body closed same ih =>
    rw [same] at ih
    exact List.cons_prefix_cons.mpr ⟨rfl, ih⟩

theorem ofPunctuation?_spelled {c : Char} {kind : TokenKind}
    (mark : TokenKind.ofPunctuation? c = some kind) : kind.Spelled [c] := by
  unfold TokenKind.ofPunctuation? at mark
  split at mark <;> cases mark <;> rfl

/-- A token takes a part of its text, and this part spells it. -/
theorem scan_spelled (text : List Char) :
    (scan text).2 ≤ text.length ∧ (scan text).1.Spelled (text.take (scan text).2) := by
  obtain _ | ⟨c, rest⟩ := text
  · exact ⟨Nat.zero_le _, rfl⟩
  simp only [scan]
  split
  · rename_i newline
    rw [newline]
    exact ⟨Nat.succ_pos _, rfl⟩
  split
  · have name := nameOf_prefix (c :: rest)
    refine ⟨name.length_le, ?_⟩
    rw [← List.prefix_iff_eq_take.mp name]
    exact String.toList_ofList.symm
  split
  · obtain ⟨inside, ⟨error, kind⟩ | ⟨magnitude, denoted, kind⟩⟩ :=
      numberOf_spelled false (c :: rest)
    · rw [kind]
      exact ⟨inside, trivial⟩
    · rw [kind]
      exact ⟨inside, Numeral.integer?_of_natural? denoted⟩
  split
  · rename_i signed
    obtain ⟨inside, ⟨error, kind⟩ | ⟨magnitude, denoted, kind⟩⟩ := numberOf_spelled true rest
    · rw [kind]
      exact ⟨Nat.succ_le_succ inside, trivial⟩
    · rw [kind]
      refine ⟨Nat.succ_le_succ inside, ?_⟩
      obtain rfl : c = '-' := by simpa using (Bool.and_eq_true_iff.mp signed).1
      rw [List.take_succ_cons, TokenKind.Spelled, Numeral.integer?, denoted]
      rfl
  split
  · rename_i quote
    have body := bodyOf_prefix rest
    split
    · rename_i closed
      rw [closed, if_pos rfl] at body
      have length := body.length_le
      rw [List.length_append, List.length_singleton] at length
      refine ⟨Nat.succ_le_succ length, ?_⟩
      have taken := List.prefix_iff_eq_take.mp body
      rw [List.length_append, List.length_singleton] at taken
      rw [List.take_succ_cons, ← taken, quote, TokenKind.Spelled, String.toList_ofList]
      rfl
    · rename_i unclosed
      rw [if_neg unclosed, List.append_nil] at body
      exact ⟨Nat.succ_le_succ body.length_le, trivial⟩
  split
  · rename_i mark
    exact ⟨Nat.succ_pos _, ofPunctuation?_spelled mark⟩
  · exact ⟨Nat.succ_pos _, trivial⟩

/-! ## Trivia -/

/-- An open comment goes up to the end of its line. -/
theorem comment_triviaLength (text : List Char) :
    triviaLength true text ≤ text.length ∧ '\n' ∉ text.take (triviaLength true text) ∧
      (text.drop (triviaLength true text) = [] ∨
        (text.drop (triviaLength true text)).head? = some '\n') := by
  induction text with
  | nil => simp [triviaLength]
  | cons c rest ih =>
    rw [triviaLength, if_pos rfl]
    split
    · rename_i newline
      simp [newline]
    · rename_i other
      obtain ⟨inside, line, ends⟩ := ih
      exact ⟨Nat.succ_le_succ inside, by simp [line, Ne.symm other], ends⟩

/-- What is skipped in front of a token is a gap. -/
theorem gap_triviaLength (text : List Char) :
    triviaLength false text ≤ text.length ∧
      Source.Gap (text.take (triviaLength false text)) (text.drop (triviaLength false text)) := by
  induction text with
  | nil => exact ⟨Nat.zero_le _, .empty []⟩
  | cons c rest ih =>
    rw [triviaLength, if_neg Bool.false_ne_true]
    split
    · rename_i blank
      obtain ⟨inside, gap⟩ := ih
      refine ⟨Nat.succ_le_succ inside, .blank ?_ gap⟩
      simpa [or_assoc] using blank
    split
    · rename_i opens
      obtain ⟨inside, line, ends⟩ := comment_triviaLength rest
      refine ⟨Nat.succ_le_succ inside, ?_⟩
      have mark : c = ';' ∨ c = '/' ∧ rest.head? = some '/' := by simpa using opens
      obtain rfl | ⟨rfl, second⟩ := mark
      · exact .comment (.inl rfl) line ends
      · obtain ⟨body, rfl⟩ := List.head?_eq_some_iff.mp second
        rw [triviaLength, if_pos rfl, if_neg (by decide)] at line ends ⊢
        exact .comment (.inr rfl) (fun member ↦ line (List.mem_cons_of_mem _ member)) ends
    · exact ⟨Nat.zero_le _, .empty _⟩

end Lexeme

/-! ## Places -/

theorem Source.columnAfter_newline (text : List Char) : columnAfter (text ++ ['\n']) = 1 := by
  simp [columnAfter]

theorem Source.columnAfter_append (text : List Char) {c : Char} (other : c ≠ '\n') :
    columnAfter (text ++ [c]) = columnAfter text + 1 := by
  simp [columnAfter, other]

namespace Cursor

variable {text : List Char} {line : Int} {cursor : Cursor} {file : String}

/-- The place lies in a text that begins on a line, and has its line and its column there. -/
structure Tracks (text : List Char) (line : Int) (cursor : Cursor) : Prop where
  inside : cursor.offset ≤ text.length
  within : cursor.Within text
  line : cursor.line = line + (text.take cursor.offset).count '\n'
  column : cursor.column = Source.columnAfter (text.take cursor.offset)

theorem tracks_start (source : String) (line : Int) :
    (start source line).Tracks source.toList line where
  inside := Nat.zero_le _
  within := rfl
  line := by simp [start]
  column := rfl

section

variable {c : Char} {rest : List Char} {row column : Int} {offset : Nat}

/-- A character that is passed joins the text in front of the place. -/
theorem Tracks.pass (tracks : Tracks text line ⟨c :: rest, row, column, offset⟩) :
    offset + 1 ≤ text.length ∧ rest = text.drop (offset + 1) ∧
      text.take (offset + 1) = text.take offset ++ [c] := by
  have within : c :: rest = text.drop offset := tracks.within
  have here : text[offset]? = some c := by rw [← List.head?_drop, ← within]; rfl
  refine ⟨(List.getElem?_eq_some_iff.mp here).1, ?_, ?_⟩
  · rw [← List.tail_drop, ← within]
    rfl
  · rw [List.take_add_one, here]
    rfl

theorem Tracks.newline (tracks : Tracks text line ⟨'\n' :: rest, row, column, offset⟩) :
    Tracks text line ⟨rest, row + 1, 1, offset + 1⟩ := by
  obtain ⟨room, further, before⟩ := tracks.pass
  have row_eq : row = line + (text.take offset).count '\n' := tracks.line
  refine ⟨room, further, ?_, ?_⟩
  · simp only [before, List.count_append, List.count_singleton_self, row_eq]
    omega
  · simp only [before, Source.columnAfter_newline]
    rfl

theorem Tracks.character (tracks : Tracks text line ⟨c :: rest, row, column, offset⟩)
    (other : c ≠ '\n') : Tracks text line ⟨rest, row, column + 1, offset + 1⟩ := by
  obtain ⟨room, further, before⟩ := tracks.pass
  have row_eq : row = line + (text.take offset).count '\n' := tracks.line
  have column_eq : column = Source.columnAfter (text.take offset) := tracks.column
  refine ⟨room, further, ?_, ?_⟩
  · simp only [before, List.count_append, List.count_singleton, row_eq]
    simp [other]
  · simp only [before, Source.columnAfter_append _ other, column_eq]
    rfl

end

/-- Skipping keeps track of line and column, and moves on by as many characters. -/
theorem Tracks.skip (tracks : cursor.Tracks text line) {count : Nat}
    (inside : count ≤ cursor.rest.length) :
    (cursor.skip count).Tracks text line ∧ (cursor.skip count).offset = cursor.offset + count := by
  induction count generalizing cursor with
  | zero => exact ⟨tracks, rfl⟩
  | succ count ih =>
    obtain ⟨_ | ⟨c, rest⟩, row, column, offset⟩ := cursor
    · cases inside
    have room := Nat.le_of_succ_le_succ inside
    simp only [Cursor.skip]
    split
    · rename_i newline
      subst newline
      obtain ⟨tracked, moved⟩ := ih tracks.newline room
      exact ⟨tracked, moved.trans (Nat.add_right_comm ..)⟩
    · rename_i other
      obtain ⟨tracked, moved⟩ := ih (tracks.character other) room
      exact ⟨tracked, moved.trans (Nat.add_right_comm ..)⟩

/-- The next token covers what is scanned at its start. -/
theorem Tracks.extract_next (tracks : cursor.Tracks text line) (file : String) :
    (cursor.next file).1.start ≤ (cursor.next file).1.stop ∧
      text.extract (cursor.next file).1.start (cursor.next file).1.stop =
        cursor.skipTrivia.rest.take (Lexeme.scan cursor.skipTrivia.rest).2 := by
  obtain ⟨here, -⟩ := tracks.skip (Lexeme.gap_triviaLength cursor.rest).1
  obtain ⟨-, ended⟩ := here.skip (Lexeme.scan_spelled cursor.skipTrivia.rest).1
  have start : (cursor.next file).1.start = cursor.skipTrivia.offset := rfl
  have stop : (cursor.next file).1.stop =
      cursor.skipTrivia.offset + (Lexeme.scan cursor.skipTrivia.rest).2 := ended
  constructor
  · rw [start, stop]
    exact Nat.le_add_right ..
  · rw [start, stop, List.extract_eq_take_drop, Nat.add_sub_cancel_left, skipTrivia, here.within]

/-- The next token stands behind a gap, is spelled by the text that it covers, and ends where the
next one is looked for. -/
theorem Tracks.next (tracks : cursor.Tracks text line) (file : String) :
    (cursor.next file).1.Faithful text file line ∧
      cursor.offset ≤ (cursor.next file).1.start ∧
      Source.Gap (text.extract cursor.offset (cursor.next file).1.start)
        (text.drop (cursor.next file).1.start) ∧
      (cursor.next file).2.Tracks text line ∧
      (cursor.next file).2.offset = (cursor.next file).1.stop := by
  obtain ⟨skipped, gap⟩ := Lexeme.gap_triviaLength cursor.rest
  obtain ⟨here, moved⟩ := tracks.skip skipped
  have there : cursor.skipTrivia = cursor.skip (Lexeme.triviaLength false cursor.rest) := rfl
  rw [← there] at here moved
  obtain ⟨taken, spelled⟩ := Lexeme.scan_spelled cursor.skipTrivia.rest
  obtain ⟨after, -⟩ := here.skip taken
  obtain ⟨ordered, covered⟩ := tracks.extract_next file
  have start : (cursor.next file).1.start = cursor.skipTrivia.offset := rfl
  refine ⟨⟨ordered, after.inside, rfl, here.line, here.column, ?_⟩, ?_, ?_, after, rfl⟩
  · rw [covered]
    exact spelled
  · rw [start, moved]
    omega
  · rw [start, ← here.within, there, rest_skip, ← there, moved, List.extract_eq_take_drop,
      Nat.add_sub_cancel_left, ← tracks.within]
    exact gap

/-- All tokens up to the last one are spelled by what they cover. -/
theorem Tracks.faithful (tracks : cursor.Tracks text line) (file : String) :
    ∀ token ∈ cursor.tokens file, token.Faithful text file line := by
  fun_induction Cursor.tokens file cursor with
  | case1 cursor step final => exact List.forall_mem_singleton.mpr (tracks.next file).1
  | case2 cursor step going ih =>
    obtain ⟨faithful, -, -, after, -⟩ := tracks.next file
    exact List.forall_mem_cons.mpr ⟨faithful, ih after⟩

end Cursor

/-! ## Readers -/

namespace TokenReader

variable {text : List Char} {file : String} {line : Int}

/-- The first tokens from a place on. -/
def stream (file : String) : Nat → Cursor → List Token
  | 0, _ => []
  | count + 1, cursor => (cursor.next file).1 :: stream file count (cursor.next file).2

theorem exists_next_of_mem_stream {token : Token} {count : Nat} {cursor : Cursor}
    (member : token ∈ stream file count cursor) :
    ∃ place : Cursor, token = (place.next file).1 := by
  induction count generalizing cursor with
  | zero => cases member
  | succ count ih =>
    obtain rfl | later := List.mem_cons.mp member
    · exact ⟨cursor, rfl⟩
    · exact ih later

/-- The next token of the reader is the one from the place on. -/
inductive StandsAt : TokenReader → Cursor → Prop
  | plain (source file : String) (cursor : Cursor) : StandsAt ⟨source, file, cursor, none⟩ cursor
  | ahead (source file : String) (cursor : Cursor) :
    StandsAt ⟨source, file, (cursor.next file).2, some (cursor.next file).1⟩ cursor

/-- The calls that look ahead change nothing about the tokens that are taken. -/
theorem taken_eq {reader : TokenReader} {cursor : Cursor} (stands : reader.StandsAt cursor)
    (calls : List Call) : taken calls reader = stream reader.file (calls.count .next) cursor := by
  induction calls generalizing reader cursor with
  | nil => rfl
  | cons call calls ih =>
    cases call with
    | next =>
      rw [List.count_cons_self, taken, stream]
      cases stands with
      | plain source file => exact congrArg _ (ih (.plain source file _))
      | ahead source file => exact congrArg _ (ih (.plain source file _))
    | peek =>
      rw [List.count_cons_of_ne (by decide), taken]
      cases stands with
      | plain source file => exact ih (.ahead source file _)
      | ahead source file => exact ih (.ahead source file _)

theorem consecutive_stream {cursor : Cursor} (tracks : cursor.Tracks text line) (count : Nat) :
    Source.Consecutive text cursor.offset (stream file count cursor) ∧
      ∀ token ∈ stream file count cursor, token.Faithful text file line := by
  induction count generalizing cursor with
  | zero => exact ⟨trivial, nofun⟩
  | succ count ih =>
    obtain ⟨faithful, behind, gap, after, ended⟩ := tracks.next file
    obtain ⟨consecutive, others⟩ := ih after
    rw [ended] at consecutive
    exact ⟨⟨behind, gap, consecutive⟩, List.forall_mem_cons.mpr ⟨faithful, others⟩⟩

end TokenReader

end MiniA64
