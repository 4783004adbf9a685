import Mathlib.Data.List.TakeWhile
import MiniA64.Assembly.Trial.Reading
import MiniA64.Proofs.Assembly.Spans

/-!
# Readings that lapse at a limit only

Every number of a source converts, because the digits that have been collected for it are digits of
its radix, and so does every name that looks like a numbered register, because names are ASCII and
each ASCII digit is a decimal one. What is left is the limit to decimal digits: a reading lapses
exactly there, at a token that consists of too many of them.
-/

namespace MiniA64

namespace Lexeme

/-- The text is a decimal number or the name of a numbered register, with so many digits that they
are not read. -/
def TooLong (count : Nat) (text : List Char) : Prop :=
  Text.digitLimit < count ∧
    ∃ front ∈ [[], ['-'], ['x'], ['X'], ['w'], ['W']], ∃ digits, text = front ++ digits ∧
      digits.length = count ∧ ∀ c ∈ digits, isAsciiDigit c = true

end Lexeme

namespace Text

theorem isSome_digitValue? {c : Char} (ascii : c.toNat < 128) :
    isDigit c = true → (digitValue? c).isSome = true := Lexeme.of_ascii ascii (by decide)

theorem isAsciiDigit_of_isDigit {c : Char} (ascii : c.toNat < 128) :
    isDigit c = true → Lexeme.isAsciiDigit c = true := Lexeme.of_ascii ascii (by decide)

theorem lowerChar_lt {c : Char} (ascii : c.toNat < 128) : (lowerChar c).toNat < 128 :=
  Lexeme.of_ascii ascii (by decide)

/-- Only a digit is lowered to one, and it is the same. -/
theorem lowerChar_of_isDigit {c : Char} (ascii : c.toNat < 128) :
    isDigit (lowerChar c) = true → lowerChar c = c := Lexeme.of_ascii ascii (by decide)

/-- A row of ASCII digits is a number, unless it is too long. -/
theorem decimal_cases {digits : List Char} (ascii : ∀ c ∈ digits, c.toNat < 128)
    (all : ∀ c ∈ digits, isDigit c = true) :
    (∃ number, decimal digits = .ok number) ∨
      digitLimit < digits.length ∧ decimal digits = .error (.tooLong digits.length) := by
  have valued : ∀ c ∈ digits, (digitValue? c).isSome = true := fun c member ↦
    isSome_digitValue? (ascii c member) (all c member)
  have whole : digits.takeWhile (fun c ↦ (digitValue? c).isSome) = digits :=
    List.takeWhile_eq_self_iff.mpr valued
  have read : digits.mapM digitValue? = some (digits.map fun c ↦ (digitValue? c).getD 0) :=
    Numeral.mapM_eq_map fun c member ↦ by
      obtain ⟨value, known⟩ := Option.isSome_iff_exists.mp (valued c member)
      rw [known, Option.getD_some]
  rw [decimal, whole]
  split
  · exact .inr ⟨‹_›, rfl⟩
  · exact .inl ⟨_, by rw [read]⟩

end Text

namespace RegisterName

/-- The letter of a numbered register, in either case. -/
theorem letter_of_lower {c : Char} {width : Width} (ascii : c.toNat < 128)
    (named : widthOfLetter? (Text.lowerChar c) = some width) : c ∈ ['x', 'X', 'w', 'W'] := by
  have known : (widthOfLetter? (Text.lowerChar c)).isSome = true := by rw [named]; rfl
  revert known
  exact Lexeme.of_ascii ascii (by decide)

/-- An ASCII name is one of a register, or it is not, unless it has too many digits. -/
theorem parse_cases {name : String} (ascii : ∀ c ∈ name.toList, c.toNat < 128) :
    (∃ register, parse name = .ok register) ∨
      ∃ count, Lexeme.TooLong count name.toList ∧ parse name = .error (.tooLong count) := by
  have lowered : (Text.lower name).toList = name.toList.map Text.lowerChar := by
    rw [Text.lower, String.toList_ofList]
  unfold parse
  dsimp only
  split
  · exact .inl ⟨_, rfl⟩
  split
  · rename_i letter first rest characters
    rw [characters] at lowered
    split
    · exact .inl ⟨_, rfl⟩
    rename_i width lettered
    split
    · exact .inl ⟨_, rfl⟩
    rename_i numeral
    split
    · exact .inl ⟨_, rfl⟩
    obtain ⟨original, digits, spelled, rfl, tail⟩ := List.map_eq_cons_iff.mp lowered.symm
    rw [spelled] at ascii
    obtain ⟨letterAscii, digitsAscii⟩ := List.forall_mem_cons.mp ascii
    have all : ∀ c ∈ first :: rest, Text.isDigit c = true := by simpa using numeral
    rw [← tail] at all ⊢
    have same : digits.map Text.lowerChar = digits := by
      refine (List.map_congr_left fun c member ↦ ?_).trans (List.map_id digits)
      exact Text.lowerChar_of_isDigit (digitsAscii c member) (all _ (List.mem_map_of_mem member))
    rw [same] at all ⊢
    obtain ⟨number, read⟩ | ⟨long, failed⟩ := Text.decimal_cases digitsAscii all
    · exact .inl ⟨_, by rw [read]; rfl⟩
    · have front : [original] ∈ [[], ['-'], ['x'], ['X'], ['w'], ['W']] := by
        have letter := letter_of_lower letterAscii lettered
        simp only [List.mem_cons, List.not_mem_nil, or_false] at letter
        obtain rfl | rfl | rfl | rfl := letter <;> decide
      have decimal : ∀ c ∈ digits, Lexeme.isAsciiDigit c = true := fun c member ↦
        Text.isAsciiDigit_of_isDigit (digitsAscii c member) (all c member)
      exact .inr ⟨_, ⟨long, _, front, digits, spelled, rfl, decimal⟩, by rw [failed]; rfl⟩
  · exact .inl ⟨_, rfl⟩

end RegisterName

namespace Lexeme

/-- Names are ASCII. -/
theorem lt_of_mem_nameOf {text : List Char} {c : Char} (member : c ∈ nameOf text) :
    c.toNat < 128 := by
  obtain name | rfl := mem_nameOf member
  · exact isNameChar_lt name
  · decide

/-! ## Digits -/

theorem radixDigit?_of_isDigitOf {radix : Nat} {c : Char} (known : radix ∈ [2, 10, 16])
    (digit : isDigitOf radix c = true) :
    Text.radixDigit? radix c = some (digitValue c) ∧ c ≠ '_' := by
  have ascii := isNameChar_lt (isNameChar_of_isDigitOf digit)
  revert digit
  simp only [List.mem_cons, List.not_mem_nil, or_false] at known
  obtain rfl | rfl | rfl := known <;> exact of_ascii ascii (by decide)

theorem digitsFrom_eq {radix : Nat} {digits : List Char} (known : radix ∈ [2, 10, 16])
    (all : ∀ c ∈ digits, isDigitOf radix c = true) (sum : Nat) :
    Text.digitsFrom radix sum digits =
      some (digits.foldl (fun value c ↦ radix * value + digitValue c) sum) := by
  induction digits generalizing sum with
  | nil => rfl
  | cons c rest ih =>
    obtain ⟨value, plain⟩ := radixDigit?_of_isDigitOf known (all c List.mem_cons_self)
    rw [List.foldl_cons, ← ih fun d member ↦ all d (List.mem_cons_of_mem _ member)]
    rw [Text.digitsFrom, value]
    rintro _ _ rfl
    exact absurd rfl plain

/-- The digits of a number convert to its value. -/
theorem digits?_eq {radix : Nat} {digits : List Char} (known : radix ∈ [2, 10, 16])
    (some : digits ≠ []) (all : ∀ c ∈ digits, isDigitOf radix c = true) :
    Text.digits? radix digits = .some (valueOf radix digits) := by
  cases digits with
  | nil => exact absurd rfl some
  | cons c rest =>
    obtain ⟨value, -⟩ := radixDigit?_of_isDigitOf known (all c List.mem_cons_self)
    rw [Text.digits?, value]
    dsimp only
    rw [digitsFrom_eq known fun d member ↦ all d (List.mem_cons_of_mem _ member), valueOf,
      List.foldl_cons, Nat.mul_zero, Nat.zero_add]

theorem radixOf_mem (text : List Char) : (radixOf text).1 ∈ [2, 10, 16] := by
  unfold radixOf
  split
  · split
    · decide
    · split <;> decide
  · decide

/-- A decimal number has no mark. -/
theorem mark_of_decimal {text : List Char} (decimal : (radixOf text).1 = 10) :
    (radixOf text).2 = 0 := by
  unfold radixOf at decimal ⊢
  split at decimal
  · split at decimal
    · cases decimal
    · split at decimal
      · cases decimal
      · rw [if_neg ‹_›, if_neg ‹_›]
  · rfl

end Lexeme

namespace Trial

open Lexeme (TooLong)

theorem integer_cases {radix : Nat} {digits : List Char} (known : radix ∈ [2, 10, 16])
    (some : digits ≠ []) (all : ∀ c ∈ digits, Lexeme.isDigitOf radix c = true) :
    integer radix digits = .ok (Lexeme.valueOf radix digits) ∨
      radix = 10 ∧ Text.digitLimit < digits.length ∧
        integer radix digits = lapse (.limit (.digits digits.length)) := by
  unfold integer
  split
  · rename_i long
    exact .inr ⟨long.1, long.2, rfl⟩
  · rw [Lexeme.digits?_eq known some all]
    exact .inl rfl

/-- A number is converted, or all that it takes are too many decimal digits. -/
theorem numeral_cases (negative : Bool) (text : List Char) :
    numeral negative text = .ok (Lexeme.numberOf negative text) ∨
      ∃ digits, text.take (Lexeme.numberOf negative text).2 = digits ∧
        Text.digitLimit < digits.length ∧ (∀ c ∈ digits, Lexeme.isAsciiDigit c = true) ∧
        numeral negative text = lapse (.limit (.digits digits.length)) := by
  unfold numeral Lexeme.numberOf
  dsimp only
  split
  · exact .inl rfl
  · rename_i some
    have all : ∀ c ∈ (text.drop (Lexeme.radixOf text).2).takeWhile
        (Lexeme.isDigitOf (Lexeme.radixOf text).1),
        Lexeme.isDigitOf (Lexeme.radixOf text).1 c = true :=
      List.all_eq_true.mp List.all_takeWhile
    obtain read | ⟨decimal, long, lapsed⟩ :=
      integer_cases (Lexeme.radixOf_mem text) (by simpa using some) all
    · rw [read]
      exact .inl rfl
    · have unmarked := Lexeme.mark_of_decimal decimal
      rw [decimal, unmarked] at long lapsed all ⊢
      rw [lapsed, List.drop_zero, Nat.zero_add, Numeral.take_length_takeWhile]
      exact .inr ⟨_, rfl, long, all, rfl⟩

/-- A token is scanned, or it has too many decimal digits. -/
theorem scan_cases (text : List Char) :
    scan text = .ok (Lexeme.scan text) ∨
      ∃ count, TooLong count (text.take (Lexeme.scan text).2) ∧
        scan text = lapse (.limit (.digits count)) := by
  unfold scan
  split
  · exact .inl rfl
  rename_i c rest
  split
  · exact .inl rfl
  rename_i plain
  obtain ⟨line, name⟩ : c ≠ '\n' ∧ Lexeme.isNameStart c = false := by simpa using plain
  split
  · rename_i digit
    rw [Lexeme.scan, if_neg line, name, if_neg Bool.false_ne_true, if_pos digit]
    obtain read | ⟨digits, taken, long, all, lapsed⟩ := numeral_cases false (c :: rest)
    · exact .inl read
    · exact .inr ⟨_, ⟨long, [], by simp, digits, taken, rfl, all⟩, lapsed⟩
  rename_i noDigit
  split
  · rename_i minus
    rw [Lexeme.scan, if_neg line, name, if_neg Bool.false_ne_true, if_neg noDigit, if_pos minus]
    obtain rfl : c = '-' := by simpa using (Bool.and_eq_true_iff.mp minus).1
    obtain read | ⟨digits, taken, long, all, lapsed⟩ := numeral_cases true rest
    · rw [read]
      exact .inl rfl
    · refine .inr ⟨digits.length, ⟨long, ['-'], by simp, digits, ?_, rfl, all⟩, ?_⟩
      · rw [List.take_succ_cons, taken]
        rfl
      · rw [lapsed]
        rfl
  · exact .inl rfl

/-- A number of too many digits is not scanned, even with zeros in front of it. -/
theorem scan_of_long {digits : List Char} (all : ∀ c ∈ digits, Lexeme.isAsciiDigit c = true)
    (long : Text.digitLimit < digits.length + 2) :
    scan ('0' :: '0' :: digits) = lapse (.limit (.digits (digits.length + 2))) := by
  have whole : digits.takeWhile Lexeme.isAsciiDigit = digits :=
    List.takeWhile_eq_self_iff.mpr all
  have read : scan ('0' :: '0' :: digits) =
      (integer 10 ('0' :: '0' :: digits.takeWhile Lexeme.isAsciiDigit) >>= fun magnitude ↦
        return (.number magnitude,
          0 + ('0' :: '0' :: digits.takeWhile Lexeme.isAsciiDigit).length)) := rfl
  rw [read, whole, integer, if_pos ⟨rfl, long⟩]
  rfl

/-- A name is looked up, or it has too many decimal digits. -/
theorem registerNamed_cases {name : String} (ascii : ∀ c ∈ name.toList, c.toNat < 128) :
    registerNamed name = .ok (RegisterName.parse? name) ∨
      ∃ count, TooLong count name.toList ∧
        registerNamed name = lapse (.limit (.digits count)) := by
  unfold registerNamed RegisterName.parse?
  obtain ⟨register, read⟩ | ⟨count, long, failed⟩ := RegisterName.parse_cases ascii
  · rw [read]
    exact .inl rfl
  · rw [failed]
    exact .inr ⟨count, long, rfl⟩

/-- The token of a place is one of those from there on. -/
theorem exists_scan_of_mem {file : String} {cursor : Cursor} :
    ∀ token ∈ cursor.tokens file, ∃ text, token.kind = (Lexeme.scan text).1 := by
  fun_induction Cursor.tokens file cursor with
  | case1 cursor step final =>
    rintro _ (_ | ⟨_, ⟨⟩⟩)
    exact ⟨_, rfl⟩
  | case2 cursor step going ih =>
    rintro token (_ | ⟨_, member⟩)
    · exact ⟨_, rfl⟩
    · exact ih token member

theorem locate_eq (source : String) (diagnostic : Diagnostic) :
    locate source diagnostic = .ok (diagnostic.locate source) := by
  unfold locate Diagnostic.locate
  cases diagnostic.sourceLine with
  | some line => rfl
  | none =>
    cases diagnostic.location with
    | none => rfl
    | some location =>
      dsimp only
      unfold sourceLine? lineAt? item
      split
      · rename_i inside
        rw [if_neg (by omega), List.getElem?_eq_getElem (by omega)]
        rfl
      · rename_i outside
        have none : (if location.line < 1 then none
            else (splitLines source.toList)[(location.line - 1).toNat]?) = none := by
          split
          · rfl
          · exact List.getElem?_eq_none (by omega)
        rw [none]
        rfl

end Trial

end MiniA64
