/-!
# Numbers in hexadecimal

Signed hexadecimal text of unbounded integers. A requested width counts the minus sign, so
the digits of a negative number are padded to one place less.
-/

namespace MiniA64.Text

def lowerDigits (value : Nat) : String := String.ofList (Nat.toDigits 16 value)

def upperDigits (value : Nat) : String := (lowerDigits value).toUpper

/-- Zeros in front of a text that is shorter than the width. -/
def padLeft (width : Nat) (digits : String) : String :=
  String.ofList (List.replicate (width - digits.length) '0') ++ digits

/-- Blanks after a text that is shorter than the width; a longer text is kept whole. -/
def padRight (width : Nat) (text : String) : String :=
  text ++ String.ofList (List.replicate (width - text.length) ' ')

/-- Blanks in front of a text that is shorter than the width. -/
def alignRight (width : Nat) (text : String) : String :=
  String.ofList (List.replicate (width - text.length) ' ') ++ text

/-- Digits padded with zeros to a width that includes the sign. -/
def signed (digits : Nat → String) (width : Nat) (value : Int) : String :=
  if value < 0 then "-" ++ padLeft (width - 1) (digits value.natAbs)
  else padLeft width (digits value.natAbs)

def hexLower (width : Nat) (value : Int) : String := signed lowerDigits width value

def hexUpper (width : Nat) (value : Int) : String := signed upperDigits width value

/-- The sign, the radix mark and the digits, as in `-0x1f`. -/
def hex (value : Int) : String :=
  if value < 0 then "-0x" ++ lowerDigits value.natAbs else "0x" ++ lowerDigits value.natAbs

/-- Two digits for each byte. -/
def hexBytes (bytes : List UInt8) : String :=
  String.join (bytes.map fun byte ↦ padLeft 2 (lowerDigits byte.toNat))

end MiniA64.Text
