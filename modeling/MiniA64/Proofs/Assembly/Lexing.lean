import MiniA64.Assembly.Token

/-!
# Reading text as tokens

A text is read as kinds of tokens, whatever their places are. Pieces of text are read one after
the other: a name or a number is read to its end if what follows does not go on with it, and a
mark is read by itself. Digits denote the number that they were made of.
-/

namespace MiniA64

namespace Lexeme

/-- The text does not go on with a name or a number in front of it. -/
def Ends (rest : List Char) : Prop := ∀ c ∈ rest.head?, isNameChar c = false ∧ c ≠ '.'

theorem ends_nil : Ends [] := nofun

theorem ends_cons {c : Char} (separates : isNameChar c = false) (notDot : c ≠ '.')
    (rest : List Char) : Ends (c :: rest) := by
  intro first member
  cases member
  exact ⟨separates, notDot⟩

theorem takeWhile_append {p : Char → Bool} {front rest : List Char}
    (all : ∀ c ∈ front, p c = true) (stops : ∀ c ∈ rest.head?, p c = false) :
    (front ++ rest).takeWhile p = front := by
  rw [List.takeWhile_append_of_pos all]
  cases rest with
  | nil => simp
  | cons c rest => simp [stops c rfl]

theorem dropWhile_append {p : Char → Bool} {front rest : List Char}
    (all : ∀ c ∈ front, p c = true) (stops : ∀ c ∈ rest.head?, p c = false) :
    (front ++ rest).dropWhile p = rest := by
  rw [List.dropWhile_append_of_pos all]
  cases rest with
  | nil => rfl
  | cons c rest => simp [stops c rfl]

/-! ## Characters -/

theorem isLetter_lt {c : Char} (letter : isLetter c = true) : c.toNat < 128 := by
  simp only [isLetter, Bool.or_eq_true, Bool.and_eq_true, decide_eq_true_eq, Char.le_def,
    UInt32.le_iff_toNat_le] at letter
  rcases letter with ⟨-, small⟩ | ⟨-, small⟩
  · exact Nat.lt_of_le_of_lt small (by decide)
  · exact Nat.lt_of_le_of_lt small (by decide)

theorem isAsciiDigit_lt {c : Char} (digit : isAsciiDigit c = true) : c.toNat < 128 := by
  simp only [isAsciiDigit, Bool.and_eq_true, decide_eq_true_eq, Char.le_def,
    UInt32.le_iff_toNat_le] at digit
  exact Nat.lt_of_le_of_lt digit.2 (by decide)

theorem isNameChar_lt {c : Char} (char : isNameChar c = true) : c.toNat < 128 := by
  simp only [isNameChar, isNameStart, Bool.or_eq_true, decide_eq_true_eq] at char
  rcases char with (letter | rfl) | digit
  · exact isLetter_lt letter
  · decide
  · exact isAsciiDigit_lt digit

/-- What holds of ASCII characters, looked at one by one. -/
@[elab_as_elim]
theorem of_ascii {holds : Char → Prop} {c : Char} (ascii : c.toNat < 128)
    (all : ∀ code : Fin 128, holds (Char.ofNat code)) : holds c := by
  have here := all ⟨c.toNat, ascii⟩
  rwa [Char.ofNat_toNat] at here

/-! ## Digits -/

theorem digitChar_spec {radix digit : Nat} (known : radix = 10 ∨ radix = 16)
    (below : digit < radix) :
    digitValue digit.digitChar = digit ∧ isDigitOf radix digit.digitChar = true := by
  have digits : ∀ digit : Fin 16, digitValue digit.val.digitChar = digit.val ∧
      isDigitOf 16 digit.val.digitChar = true ∧
      (digit.val < 10 → isDigitOf 10 digit.val.digitChar = true) := by decide
  rcases known with rfl | rfl
  · obtain ⟨value, -, decimal⟩ := digits ⟨digit, by omega⟩
    exact ⟨value, decimal below⟩
  · obtain ⟨value, hexadecimal, -⟩ := digits ⟨digit, below⟩
    exact ⟨value, hexadecimal⟩

theorem valueOf_append (radix : Nat) (digits : List Char) (c : Char) :
    valueOf radix (digits ++ [c]) = radix * valueOf radix digits + digitValue c := by
  rw [valueOf, List.foldl_append]
  rfl

theorem valueOf_zeros (radix zeros : Nat) (digits : List Char) :
    valueOf radix (List.replicate zeros '0' ++ digits) = valueOf radix digits := by
  induction zeros with
  | zero => rfl
  | succ zeros ih =>
    rw [← ih, List.replicate_succ, List.cons_append, valueOf, valueOf, List.foldl_cons]
    rfl

/-- The digits of a number are digits and denote the number. -/
theorem toDigits_spec {radix : Nat} (known : radix = 10 ∨ radix = 16) (number : Nat) :
    valueOf radix (Nat.toDigits radix number) = number ∧
      ∀ c ∈ Nat.toDigits radix number, isDigitOf radix c = true := by
  have base : 1 < radix := by omega
  induction number using Nat.strongRecOn with
  | ind number ih =>
    rw [Nat.toDigits_eq_if base]
    split
    · rename_i below
      obtain ⟨value, digit⟩ := digitChar_spec known below
      refine ⟨?_, fun c member ↦ ?_⟩
      · simp [valueOf, value]
      · rw [List.mem_singleton.mp member]
        exact digit
    · rename_i large
      obtain ⟨value, digits⟩ := ih (number / radix) (Nat.div_lt_self (by omega) base)
      obtain ⟨last, digit⟩ := digitChar_spec known (Nat.mod_lt number (by omega))
      refine ⟨?_, fun c member ↦ ?_⟩
      · rw [valueOf_append, value, last, Nat.div_add_mod]
      · rcases List.mem_append.mp member with member | member
        · exact digits c member
        · rw [List.mem_singleton.mp member]
          exact digit

theorem isNameChar_of_isDigitOf {radix : Nat} {c : Char} (h : isDigitOf radix c = true) :
    isNameChar c = true := by
  simp only [isNameChar, isNameStart, isLetter, isAsciiDigit, Bool.or_eq_true, Bool.and_eq_true,
    decide_eq_true_eq, Char.le_def, UInt32.le_iff_toNat_le, isDigitOf] at h ⊢
  split at h
  · simp at h ⊢
    omega
  split at h
  · have binary : c = '0' ∨ c = '1' := by simpa using h
    rcases binary with rfl | rfl <;> decide
  · simp at h ⊢
    omega

/-- Names and numbers contain nothing that would open a comment or pass as a blank. -/
theorem triviaLength_eq_zero {c : Char} (rest : List Char)
    (visible : c ≠ ' ' ∧ c ≠ '\t' ∧ c ≠ '\r' ∧ c ≠ ';' ∧ c ≠ '/') :
    triviaLength false (c :: rest) = 0 := by
  obtain ⟨notBlank, notTab, notReturn, notComment, notSlash⟩ := visible
  simp [triviaLength, notBlank, notTab, notReturn, notComment, notSlash]

theorem visible_of_isNameChar {c : Char} (h : isNameChar c = true) :
    c ≠ ' ' ∧ c ≠ '\t' ∧ c ≠ '\r' ∧ c ≠ ';' ∧ c ≠ '/' := by
  refine ⟨?_, ?_, ?_, ?_, ?_⟩ <;> rintro rfl <;> revert h <;> decide

/-! ## Numbers -/

theorem stops_digits {radix : Nat} {rest : List Char} (ends : Ends rest) :
    ∀ c ∈ rest.head?, isDigitOf radix c = false := by
  intro c member
  cases digit : isDigitOf radix c with
  | false => rfl
  | true =>
    have contradiction := isNameChar_of_isDigitOf digit
    rw [(ends c member).1] at contradiction
    cases contradiction

/-- A number is not empty, and decimal if no radix mark is in its second place. -/
theorem radixOf_digits {number : Nat} {rest : List Char} (ends : Ends rest) :
    radixOf (Nat.toDigits 10 number ++ rest) = (10, 0) := by
  have digits := (toDigits_spec (.inl rfl) number).2
  have unmarked (c : Char) (tail : List Char)
      (notMark : ∀ mark ∈ tail.head?, mark ≠ 'x' ∧ mark ≠ 'X' ∧ mark ≠ 'b' ∧ mark ≠ 'B') :
      radixOf (c :: tail) = (10, 0) := by
    unfold radixOf
    split
    · rename_i mark _ equal
      cases equal
      obtain ⟨lower, upper, binary, binary'⟩ := notMark mark rfl
      simp [lower, upper, binary, binary']
    · rfl
  match hdigits : Nat.toDigits 10 number with
  | [] => exact absurd hdigits Nat.toDigits_ne_nil
  | [c] =>
    refine unmarked c rest fun mark member ↦ ?_
    have separates := (ends mark member).1
    refine ⟨?_, ?_, ?_, ?_⟩ <;> rintro rfl <;> revert separates <;> decide
  | c :: second :: tail =>
    refine unmarked c (second :: tail ++ rest) fun mark member ↦ ?_
    cases member
    have digit := digits second (by simp [hdigits])
    refine ⟨?_, ?_, ?_, ?_⟩ <;> rintro rfl <;> revert digit <;> decide

theorem numberOf_decimal (negative : Bool) (number : Nat) {rest : List Char}
    (ends : Ends rest) :
    numberOf negative (Nat.toDigits 10 number ++ rest) =
      (.number (if negative then -(number : Int) else number),
        (Nat.toDigits 10 number).length) := by
  obtain ⟨value, digits⟩ := toDigits_spec (.inl rfl : 10 = 10 ∨ 10 = 16) number
  have nonempty : (Nat.toDigits 10 number).isEmpty = false := by
    simp [Nat.toDigits_ne_nil]
  simp only [numberOf, radixOf_digits ends, List.drop_zero,
    takeWhile_append digits (stops_digits ends), nonempty, value, Bool.false_eq_true, if_false,
    Nat.zero_add]

theorem numberOf_hexadecimal (negative : Bool) {digits rest : List Char} {number : Nat}
    (nonempty : digits ≠ []) (value : valueOf 16 digits = number)
    (all : ∀ c ∈ digits, isDigitOf 16 c = true) (ends : Ends rest) :
    numberOf negative ('0' :: 'x' :: (digits ++ rest)) =
      (.number (if negative then -(number : Int) else number), 2 + digits.length) := by
  have found : digits.isEmpty = false := by simp [nonempty]
  have radix : radixOf ('0' :: 'x' :: (digits ++ rest)) = (16, 2) := rfl
  simp only [numberOf, radix, List.drop_succ_cons, List.drop_zero,
    takeWhile_append all (stops_digits ends), found, value, Bool.false_eq_true, if_false]

/-! ## Single tokens -/

/-- A name as the scanner takes it: letters and digits, or `b.` with a condition. -/
def isSpelling : List Char → Bool
  | 'b' :: '.' :: suffix => suffix.all isLetter
  | c :: rest => isNameStart c && rest.all isNameChar
  | [] => false

theorem nameOf_append {name rest : List Char} (all : ∀ c ∈ name, isNameChar c = true)
    (ends : Ends rest) : nameOf (name ++ rest) = name := by
  have stops : ∀ c ∈ rest.head?, isNameChar c = false := fun c member ↦ (ends c member).1
  have notDot : (rest.head? = some '.') = False :=
    eq_false fun head ↦ (ends '.' head).2 rfl
  simp [nameOf, takeWhile_append all stops, dropWhile_append all stops, notDot]

theorem nameOf_condition {suffix rest : List Char} (letters : ∀ c ∈ suffix, isLetter c = true)
    (ends : Ends rest) :
    nameOf ('b' :: '.' :: (suffix ++ rest)) = 'b' :: '.' :: suffix := by
  have stops : ∀ c ∈ rest.head?, isLetter c = false := by
    intro c member
    have separates := (ends c member).1
    simp only [isNameChar, isNameStart, Bool.or_eq_false_iff] at separates
    exact separates.1.1
  have name : ('b' :: '.' :: (suffix ++ rest)).takeWhile isNameChar = ['b'] := rfl
  have after : ('b' :: '.' :: (suffix ++ rest)).dropWhile isNameChar = '.' :: (suffix ++ rest) :=
    rfl
  simp [nameOf, name, after, takeWhile_append letters stops]

theorem scan_spelling {name rest : List Char} (spelled : isSpelling name = true)
    (ends : Ends rest) :
    scan (name ++ rest) = (.identifier (String.ofList name), name.length) ∧
      triviaLength false (name ++ rest) = 0 := by
  have scanned {c : Char} (tail : List Char) (start : isNameStart c = true) :
      scan (c :: tail) = (.identifier (String.ofList (nameOf (c :: tail))),
        (nameOf (c :: tail)).length) := by
    have notNewline : c ≠ '\n' := by
      rintro rfl
      revert start
      decide
    simp only [scan, if_neg notNewline, start, if_true]
  unfold isSpelling at spelled
  split at spelled
  · rename_i suffix
    have letters := List.all_eq_true.mp spelled
    refine ⟨?_, rfl⟩
    rw [List.cons_append, List.cons_append, scanned _ rfl, nameOf_condition letters ends]
  · rename_i c tail _
    rw [Bool.and_eq_true] at spelled
    have first : isNameChar c = true := by rw [isNameChar, spelled.1, Bool.true_or]
    have all : ∀ d ∈ c :: tail, isNameChar d = true := by
      intro d member
      rcases List.mem_cons.mp member with rfl | member
      · exact first
      · exact List.all_eq_true.mp spelled.2 d member
    refine ⟨?_, triviaLength_eq_zero _ (visible_of_isNameChar first)⟩
    have name := nameOf_append all ends
    rw [List.cons_append] at name ⊢
    rw [scanned _ spelled.1, name]
  · cases spelled

/-- A digit in front of a text begins a number there. -/
theorem scan_digit {c : Char} (tail : List Char) (digit : isAsciiDigit c = true) :
    scan (c :: tail) = numberOf false (c :: tail) ∧
      scan ('-' :: c :: tail) =
        ((numberOf true (c :: tail)).1, (numberOf true (c :: tail)).2 + 1) := by
  have isDigit : Text.isDigit c = true := by
    have ascii : c.toNat < 128 := by
      simp [isAsciiDigit, Char.le_def, UInt32.le_iff_toNat_le] at digit
      omega
    have between : '0' ≤ c ∧ c ≤ '9' := by simpa [isAsciiDigit] using digit
    simp [Text.isDigit, Text.digitValue?, ascii, between]
  have notNewline : c ≠ '\n' := by
    rintro rfl
    revert digit
    decide
  have notStart : isNameStart c = false := by
    simp [isAsciiDigit, isNameStart, isLetter, Char.le_def, UInt32.le_iff_toNat_le,
      ← Char.toNat_inj] at digit ⊢
    omega
  constructor
  · simp only [scan, if_neg notNewline, notStart, Bool.false_eq_true, if_false, isDigit, if_true]
  · have mark : isNameStart '-' = false ∧ Text.isDigit '-' = false := by decide
    simp [scan, isDigit, mark]

/-- The text is a numeral of a natural number. -/
structure Denotes (digits : List Char) (number : Nat) : Prop where
  first : ∃ c tail, digits = c :: tail ∧ isAsciiDigit c = true
  read : ∀ (negative : Bool) (rest : List Char), Ends rest →
    numberOf negative (digits ++ rest) =
      (.number (if negative then -(number : Int) else number), digits.length)

theorem denotes_decimal (number : Nat) : Denotes (Nat.toDigits 10 number) number := by
  refine ⟨?_, fun negative rest ends ↦ numberOf_decimal negative number ends⟩
  have digits := (toDigits_spec (.inl rfl : 10 = 10 ∨ 10 = 16) number).2
  match hdigits : Nat.toDigits 10 number with
  | [] => exact absurd hdigits Nat.toDigits_ne_nil
  | c :: tail => exact ⟨c, tail, rfl, digits c (by simp [hdigits])⟩

/-- Hexadecimal digits denote their number, also with zeros in front of them. -/
theorem denotes_hexadecimal (zeros number : Nat) :
    Denotes ('0' :: 'x' :: (List.replicate zeros '0' ++ Nat.toDigits 16 number)) number := by
  refine ⟨⟨_, _, rfl, rfl⟩, fun negative rest ends ↦ ?_⟩
  obtain ⟨value, digits⟩ := toDigits_spec (.inr rfl : 16 = 10 ∨ 16 = 16) number
  have nonempty : List.replicate zeros '0' ++ Nat.toDigits 16 number ≠ [] := by
    simp [Nat.toDigits_ne_nil]
  have all : ∀ c ∈ List.replicate zeros '0' ++ Nat.toDigits 16 number,
      isDigitOf 16 c = true := by
    intro c member
    rcases List.mem_append.mp member with zero | digit
    · rw [List.eq_of_mem_replicate zero]
      rfl
    · exact digits c digit
  rw [List.cons_append, List.cons_append, numberOf_hexadecimal negative nonempty
    ((valueOf_zeros 16 zeros _).trans value) all ends]
  simp only [List.length_cons, Nat.add_comm 2, Nat.add_assoc]

/-- The mark of a radix and the digits behind it are characters of names. -/
theorem isNameChar_of_mem_number (negative : Bool) (text : List Char) :
    ∀ c ∈ text.take (numberOf negative text).2, isNameChar c = true := by
  have pair {mark : Char} (letter : isNameChar mark = true) :
      ∀ c ∈ ['0', mark], isNameChar c = true := by
    intro c member
    obtain rfl | second := List.mem_cons.mp member
    · decide
    · rw [List.mem_singleton.mp second]
      exact letter
  have marked : ∀ c ∈ text.take (radixOf text).2, isNameChar c = true := by
    unfold radixOf
    split
    · rename_i mark rest
      split
      · rename_i hexadecimal
        obtain rfl | rfl : mark = 'x' ∨ mark = 'X' := by simpa using hexadecimal
        · exact pair (by decide)
        · exact pair (by decide)
      split
      · rename_i binary
        obtain rfl | rfl : mark = 'b' ∨ mark = 'B' := by simpa using binary
        · exact pair (by decide)
        · exact pair (by decide)
      · exact nofun
    · exact nofun
  simp only [numberOf]
  split
  · exact marked
  · intro c member
    rw [List.take_add, ← List.prefix_iff_eq_take.mp (List.takeWhile_prefix _)] at member
    obtain front | digit := List.mem_append.mp member
    · exact marked c front
    · exact isNameChar_of_isDigitOf (List.all_eq_true.mp List.all_takeWhile c digit)

theorem Denotes.notMem_newline {digits : List Char} {number : Nat}
    (denotes : Denotes digits number) : '\n' ∉ digits := by
  have read := denotes.read false [] ends_nil
  have all := isNameChar_of_mem_number false digits
  rw [List.append_nil] at read
  rw [read, List.take_length] at all
  exact fun member ↦ Bool.noConfusion (all '\n' member)

/-! ## Texts of one token -/

/-- The text is one token in front of every text that may follow. -/
structure IsToken (follows : List Char → Prop) (text : List Char) (kind : TokenKind) : Prop where
  visible : ∀ rest, follows rest → triviaLength false (text ++ rest) = 0
  scanned : ∀ rest, follows rest → scan (text ++ rest) = (kind, text.length)

theorem isToken_spelling {name : List Char} (spelled : isSpelling name = true) :
    IsToken Ends name (.identifier (String.ofList name)) where
  visible _ ends := (scan_spelling spelled ends).2
  scanned _ ends := (scan_spelling spelled ends).1

/-- A numeral, behind a minus sign if it is negative, is one token. -/
theorem isToken_number {digits : List Char} {number : Nat} (denotes : Denotes digits number)
    (negative : Bool) :
    IsToken Ends (if negative then '-' :: digits else digits)
      (.number (if negative then -(number : Int) else number)) := by
  have read := denotes.read negative
  obtain ⟨c, tail, rfl, digit⟩ := denotes.first
  have name : isNameChar c = true := by rw [isNameChar, digit, Bool.or_true]
  cases negative with
  | true =>
    refine ⟨fun _ _ ↦ rfl, fun rest ends ↦ ?_⟩
    have number := read rest ends
    rw [List.cons_append] at number
    simp only [if_true, List.cons_append, (scan_digit (tail ++ rest) digit).2, number,
      List.length_cons]
  | false =>
    refine ⟨fun _ _ ↦ triviaLength_eq_zero _ (visible_of_isNameChar name), fun rest ends ↦ ?_⟩
    have number := read rest ends
    rw [List.cons_append] at number
    simp only [Bool.false_eq_true, if_false, List.cons_append,
      (scan_digit (tail ++ rest) digit).1, number]

theorem isToken_punctuation {c : Char} {kind : TokenKind}
    (member : (c, kind) ∈ [(',', .comma), ('#', .hash), ('[', .leftBracket),
      (']', .rightBracket), ('!', .bang), ('.', .dot), ('\n', .newline)]) :
    IsToken (fun _ ↦ True) [c] kind ∧ kind.isFinal = false := by
  simp only [List.mem_cons, Prod.mk.injEq, List.not_mem_nil, or_false] at member
  rcases member with ⟨rfl, rfl⟩ | ⟨rfl, rfl⟩ | ⟨rfl, rfl⟩ | ⟨rfl, rfl⟩ | ⟨rfl, rfl⟩ |
      ⟨rfl, rfl⟩ | ⟨rfl, rfl⟩ <;>
    exact ⟨⟨fun _ _ ↦ rfl, fun _ _ ↦ rfl⟩, rfl⟩

/-! ## What tokens are made of -/

/-- The characters of a name. There is a dot in the name of a branch. -/
theorem mem_nameOf {text : List Char} {c : Char} (member : c ∈ nameOf text) :
    isNameChar c = true ∨ c = '.' := by
  have plain (front : c ∈ text.takeWhile isNameChar) : isNameChar c = true :=
    List.all_eq_true.mp List.all_takeWhile c front
  simp only [nameOf] at member
  split at member
  · obtain front | branch := List.mem_append.mp member
    · exact .inl (plain front)
    · obtain dot | suffix := List.mem_cons.mp branch
      · exact .inr dot
      · have letter := List.all_eq_true.mp List.all_takeWhile c suffix
        exact .inl (by rw [isNameChar, isNameStart, letter]; rfl)
  · exact .inl (plain member)

theorem numberOf_cases (negative : Bool) (text : List Char) :
    (∃ error, (numberOf negative text).1 = .error error) ∨
      ∃ value, (numberOf negative text).1 = .number value := by
  simp only [numberOf]
  split
  · exact .inl ⟨_, rfl⟩
  · exact .inr ⟨_, rfl⟩

/-- What a token at the start of a text has of the characters there: a name begins the text, and
what a string is made of stands before a quote. -/
def Made (text : List Char) : TokenKind → Prop
  | .identifier name => name = String.ofList (nameOf text)
  | .string raw => ∃ rest, (bodyOf rest).2 = true ∧ raw = String.ofList (bodyOf rest).1
  | _ => True

theorem made_scan (text : List Char) : Made text (scan text).1 := by
  obtain _ | ⟨c, rest⟩ := text
  · trivial
  simp only [scan]
  split
  · trivial
  split
  · exact rfl
  split
  · obtain ⟨_, kind⟩ | ⟨_, kind⟩ := numberOf_cases false (c :: rest) <;> rw [kind] <;> trivial
  split
  · obtain ⟨_, kind⟩ | ⟨_, kind⟩ := numberOf_cases true rest <;> rw [kind] <;> trivial
  split
  · split
    · rename_i closed
      exact ⟨rest, closed, rfl⟩
    · trivial
  split
  · rename_i mark
    unfold TokenKind.ofPunctuation? at mark
    split at mark <;> cases mark <;> trivial
  · trivial

theorem name_of_scan {text : List Char} {name : String}
    (scanned : (scan text).1 = .identifier name) : name = String.ofList (nameOf text) := by
  have made := made_scan text
  rwa [scanned] at made

theorem exists_bodyOf_of_scan {text : List Char} {raw : String}
    (scanned : (scan text).1 = .string raw) :
    ∃ rest, (bodyOf rest).2 = true ∧ raw = String.ofList (bodyOf rest).1 := by
  have made := made_scan text
  rwa [scanned] at made

/-! ## Texts -/

/-- The tokens of a text are of these kinds, the last of which ends the sequence. -/
inductive Lexes : List Char → List TokenKind → Prop
  | final {text : List Char} {kind : TokenKind} {length : Nat}
      (scanned : scan (text.drop (triviaLength false text)) = (kind, length))
      (ends : kind.isFinal = true) : Lexes text [kind]
  | step {text : List Char} {kind : TokenKind} {length : Nat} {kinds : List TokenKind}
      (scanned : scan (text.drop (triviaLength false text)) = (kind, length))
      (goes : kind.isFinal = false)
      (rest : Lexes ((text.drop (triviaLength false text)).drop length) kinds) :
      Lexes text (kind :: kinds)

theorem lexes_nil : Lexes [] [.endOfInput] := .final rfl rfl

/-- A piece of text is read as these kinds in front of every text that may follow it. -/
def Piece (follows : List Char → Prop) (text : List Char) (kinds : List TokenKind) : Prop :=
  ∀ rest after, follows rest → Lexes rest after → Lexes (text ++ rest) (kinds ++ after)

/-- A piece that stands by itself. -/
abbrev Mark := Piece fun _ ↦ True

/-- A piece that goes on unless it ends. -/
abbrev Open := Piece Ends

theorem Mark.open {text : List Char} {kinds : List TokenKind} (h : Mark text kinds) :
    Open text kinds := fun rest after _ ↦ h rest after trivial

theorem Piece.append {before follows : List Char → Prop} {first second : List Char}
    {kinds more : List TokenKind} (h₁ : Piece before first kinds)
    (h₂ : Piece follows second more) (joins : ∀ rest, follows rest → before (second ++ rest)) :
    Piece follows (first ++ second) (kinds ++ more) := by
  intro rest after may read
  rw [List.append_assoc, List.append_assoc]
  exact h₁ _ _ (joins rest may) (h₂ _ _ may read)

/-- A token that does not end the sequence is a piece. -/
theorem IsToken.piece {follows : List Char → Prop} {text : List Char} {kind : TokenKind}
    (token : IsToken follows text kind) (goes : kind.isFinal = false) :
    Piece follows text [kind] := by
  intro rest after may read
  have visible := token.visible rest may
  apply @Lexes.step _ kind text.length _ _ goes
  · rw [visible, List.drop_zero, List.drop_left]
    exact read
  · rw [visible, List.drop_zero, token.scanned rest may]

theorem piece_spelling {name : List Char} (spelled : isSpelling name = true) :
    Open name [.identifier (String.ofList name)] :=
  (isToken_spelling spelled).piece rfl

theorem piece_number {digits : List Char} {number : Nat} (denotes : Denotes digits number)
    (negative : Bool) :
    Open (if negative then '-' :: digits else digits)
      [.number (if negative then -(number : Int) else number)] :=
  (isToken_number denotes negative).piece rfl

theorem mark_blank : Mark [' '] [] := by
  intro rest after _ read
  have skipped : (' ' :: rest).drop (triviaLength false (' ' :: rest)) =
      rest.drop (triviaLength false rest) := rfl
  cases read with
  | final scanned ends => exact .final (by rw [List.singleton_append, skipped, scanned]) ends
  | step scanned goes more =>
    refine .step (by rw [List.singleton_append, skipped, scanned]) goes ?_
    rw [List.singleton_append, skipped]
    exact more

theorem mark_punctuation {c : Char} {kind : TokenKind}
    (member : (c, kind) ∈ [(',', .comma), ('#', .hash), ('[', .leftBracket),
      (']', .rightBracket), ('!', .bang), ('.', .dot), ('\n', .newline)]) :
    Mark [c] [kind] :=
  (isToken_punctuation member).1.piece (isToken_punctuation member).2

end Lexeme

namespace Cursor

theorem rest_skipTrivia (cursor : Cursor) :
    cursor.skipTrivia.rest = cursor.rest.drop (Lexeme.triviaLength false cursor.rest) :=
  rest_skip _ _

theorem rest_next (file : String) (cursor : Cursor) :
    (cursor.next file).2.rest =
      cursor.skipTrivia.rest.drop (Lexeme.scan cursor.skipTrivia.rest).2 := rest_skip _ _

theorem offset_skip {count : Nat} {cursor : Cursor} (inside : count ≤ cursor.rest.length) :
    (cursor.skip count).offset = cursor.offset + count := by
  induction count generalizing cursor with
  | zero => rfl
  | succ count ih =>
    obtain ⟨_ | ⟨c, rest⟩, row, column, offset⟩ := cursor
    · cases inside
    have room := Nat.le_of_succ_le_succ inside
    simp only [Cursor.skip]
    split
    · exact (ih room).trans (Nat.add_right_comm ..)
    · exact (ih room).trans (Nat.add_right_comm ..)

/-- A token is the next one where its text stands, and the place after it comes behind it. -/
theorem next_of_isToken {follows : List Char → Prop} {text rest : List Char} {kind : TokenKind}
    (token : Lexeme.IsToken follows text kind) (may : follows rest) {cursor : Cursor}
    (here : cursor.rest = text ++ rest) (file : String) :
    cursor.next file =
      (⟨kind, cursor.location file, cursor.offset, cursor.offset + text.length⟩,
        cursor.skip text.length) := by
  have stays : cursor.skipTrivia = cursor := by
    rw [skipTrivia, here, token.visible rest may, skip]
  have moved : (cursor.skip text.length).offset = cursor.offset + text.length :=
    offset_skip (by rw [here, List.length_append]; exact Nat.le_add_right _ _)
  simp only [next, stays, here, token.scanned rest may, moved]

/-- The tokens of a source are of the kinds that its text is read as. -/
theorem kinds_tokens {text : List Char} {kinds : List TokenKind} (h : Lexeme.Lexes text kinds)
    (file : String) (cursor : Cursor) (here : cursor.rest = text) :
    (cursor.tokens file).map (·.kind) = kinds := by
  induction h generalizing cursor with
  | final scanned ends =>
    have kind := cursor.kind_next file
    rw [rest_skipTrivia, here, scanned] at kind
    rw [tokens, dif_pos (by rw [kind]; exact ends)]
    simp [kind]
  | step scanned goes rest ih =>
    have kind := cursor.kind_next file
    have following := cursor.rest_next file
    rw [rest_skipTrivia, here, scanned] at kind following
    rw [tokens, dif_neg (by simp [kind, goes]), List.map_cons, kind, ih _ following]

end Cursor

end MiniA64
