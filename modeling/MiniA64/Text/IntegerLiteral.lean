import MiniA64.Text.Characters
import MiniA64.Text.Decimal

/-!
# Integer literals

Integers as configuration values and command-line arguments spell them: blanks around the
number, a sign, a radix mark `0x`, `0o` or `0b` in either case, digits of any script, and single
underscores between digits and after the mark. Without a mark a number that begins with a zero
must be zero, and has no more digits than the limit.
-/

namespace MiniA64.Text

/-- The value of a digit below the radix. -/
def radixDigit? (radix : Nat) (c : Char) : Option Nat :=
  let value? :=
    match digitValue? c with
    | some value => some value
    | none =>
      if 'a' ≤ c ∧ c ≤ 'z' then some (c.toNat - 87)
      else if 'A' ≤ c ∧ c ≤ 'Z' then some (c.toNat - 55)
      else none
  value?.filter (· < radix)

/-- Digits with single underscores between them, read from the left. -/
def digitsFrom (radix : Nat) (sum : Nat) : List Char → Option Nat
  | [] => some sum
  | '_' :: c :: rest =>
    match radixDigit? radix c with
    | some value => digitsFrom radix (radix * sum + value) rest
    | none => none
  | c :: rest =>
    match radixDigit? radix c with
    | some value => digitsFrom radix (radix * sum + value) rest
    | none => none

def digits? (radix : Nat) : List Char → Option Nat
  | [] => none
  | c :: rest =>
    match radixDigit? radix c with
    | some value => digitsFrom radix value rest
    | none => none

def radixOfMark? : Char → Option Nat
  | 'x' => some 16
  | 'X' => some 16
  | 'o' => some 8
  | 'O' => some 8
  | 'b' => some 2
  | 'B' => some 2
  | _ => none

/-- Digits after a radix mark, where one underscore may stand first. -/
def markedDigits? (radix : Nat) : List Char → Option Nat
  | '_' :: rest => digits? radix rest
  | text => digits? radix text

def decimalDigits? (text : List Char) : Option Nat :=
  if digitLimit < (text.filter (· ≠ '_')).length then none else digits? 10 text

/-- Decimal digits: a first digit zero allows only zeros. -/
def unmarkedDigits? (text : List Char) : Option Nat :=
  match text with
  | [] => none
  | first :: _ =>
    match decimalDigits? text with
    | some value => if digitValue? first = some 0 && value ≠ 0 then none else some value
    | none => none

def natural? (text : List Char) : Option Nat :=
  match text with
  | first :: mark :: rest =>
    if digitValue? first = some 0 then
      match radixOfMark? mark with
      | some radix => markedDigits? radix rest
      | none => unmarkedDigits? text
    else unmarkedDigits? text
  | _ => unmarkedDigits? text

/-- A number with blanks around it and a sign in front of it. -/
def signed? (read : List Char → Option Nat) (text : String) : Option Int :=
  match trim isBlankAroundNumber text.toList with
  | '-' :: rest => (read rest).map fun value ↦ -(value : Int)
  | '+' :: rest => (read rest).map Int.ofNat
  | rest => (read rest).map Int.ofNat

def integer? (text : String) : Option Int := signed? natural? text

/-- An integer without a radix mark, where zeros may stand first. -/
def decimalInteger? (text : String) : Option Int := signed? decimalDigits? text

end MiniA64.Text
