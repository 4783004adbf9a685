import MiniA64.Text.Characters
import MiniA64.Text.Quoted

/-!
# Decimal digits of every script

Unicode gives ten consecutive characters to the decimal digits of each script, so a script is
named by its zero. A few more characters are digits without being decimal digits, superscripts
and circled numbers among them: they look like a number and have no value in one.

Decimal numbers are read and printed up to a limit of digits. The limit is one of the host, and
numbers in another radix have none.
-/

namespace MiniA64.Text

/-- The zeros of all scripts, ascending. -/
def zeros : List Nat :=
  [0x30, 0x660, 0x6f0, 0x7c0, 0x966, 0x9e6, 0xa66, 0xae6,
    0xb66, 0xbe6, 0xc66, 0xce6, 0xd66, 0xde6, 0xe50, 0xed0,
    0xf20, 0x1040, 0x1090, 0x17e0, 0x1810, 0x1946, 0x19d0, 0x1a80,
    0x1a90, 0x1b50, 0x1bb0, 0x1c40, 0x1c50, 0xa620, 0xa8d0, 0xa900,
    0xa9d0, 0xa9f0, 0xaa50, 0xabf0, 0xff10, 0x104a0, 0x10d30, 0x11066,
    0x110f0, 0x11136, 0x111d0, 0x112f0, 0x11450, 0x114d0, 0x11650, 0x116c0,
    0x11730, 0x118e0, 0x11950, 0x11c50, 0x11d50, 0x11da0, 0x16a60, 0x16ac0,
    0x16b50, 0x1d7ce, 0x1d7d8, 0x1d7e2, 0x1d7ec, 0x1d7f6, 0x1e140, 0x1e2f0,
    0x1e950, 0x1fbf0]

/-- Code point ranges of the digits that are not decimal digits. -/
def otherDigits : List (Nat × Nat) :=
  [(0xb2, 0xb3), (0xb9, 0xb9), (0x1369, 0x1371), (0x19da, 0x19da), (0x2070, 0x2070),
    (0x2074, 0x2079), (0x2080, 0x2089), (0x2460, 0x2468), (0x2474, 0x247c), (0x2488, 0x2490),
    (0x24ea, 0x24ea), (0x24f5, 0x24fd), (0x24ff, 0x24ff), (0x2776, 0x277e), (0x2780, 0x2788),
    (0x278a, 0x2792), (0x10a40, 0x10a43), (0x10e60, 0x10e68), (0x11052, 0x1105a), (0x1f100, 0x1f10a)]

/-- The value of a decimal digit. -/
def digitValue? (c : Char) : Option Nat :=
  if c.toNat < 128 then
    if '0' ≤ c ∧ c ≤ '9' then some (c.toNat - 48) else none
  else
    (zeros.find? fun first ↦ first ≤ c.toNat && c.toNat < first + 10).map (c.toNat - ·)

def isDigit (c : Char) : Bool :=
  (digitValue? c).isSome || otherDigits.any fun (first, last) ↦ first ≤ c.toNat && c.toNat ≤ last

/-- The most decimal digits that a number is read from or printed with. -/
def digitLimit : Nat := 4300

/-- The number has no more decimal digits than it may be printed with. -/
def PrintableNumber (number : Int) : Prop := number.natAbs < 10 ^ digitLimit

instance (number : Int) : Decidable (PrintableNumber number) :=
  inferInstanceAs (Decidable (number.natAbs < 10 ^ digitLimit))

/-- What is said of a number with too many digits, which are counted where it is read. -/
def tooManyDigits (counted : String) : String :=
  "Exceeds the limit (" ++ toString digitLimit ++ " digits) for integer string conversion" ++
    counted ++ "; use sys.set_int_max_str_digits() to increase the limit"

/-- A row of digits that is not read as a number: it holds a digit without a decimal value, or it
is too long. -/
inductive NumeralError
  | notDecimal (text : String)
  | tooLong (digits : Nat)
  deriving DecidableEq, Repr

def NumeralError.message : NumeralError → String
  | notDecimal text => "invalid literal for int() with base 10: " ++ quoted text
  | tooLong digits => tooManyDigits (": value has " ++ toString digits ++ " digits")

/-- The number that a row of decimal digits denotes. Digits are counted up to the first one that is
not decimal, before any of them is used. -/
def decimal (digits : List Char) : Except NumeralError Nat :=
  let count := (digits.takeWhile fun c ↦ (digitValue? c).isSome).length
  if digitLimit < count then .error (.tooLong count)
  else
    match digits.mapM digitValue? with
    | some values => .ok (values.foldl (fun number value ↦ 10 * number + value) 0)
    | none => .error (.notDecimal (String.ofList digits))

end MiniA64.Text
