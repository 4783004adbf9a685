/-!
# Characters

Keywords of the assembly language are ASCII words in any letter case. Besides the capital letters,
one more character has a lower-case form in ASCII: the Kelvin sign, which lowers to the letter k.

The characters that count as blank at the ends of a line come from every script. Around a number
the four ASCII separators 0x1c to 0x1f do not count.

Between memory and text each byte stands for the character with that code point, so that names and
console output pass without loss.
-/

namespace MiniA64.Text

/-! ## Letter case -/

/-- The lower-case form of a character as far as it can occur in a keyword. -/
def lowerChar (c : Char) : Char := if c = '\u212a' then 'k' else c.toLower

def lower (text : String) : String := String.ofList (text.toList.map lowerChar)

/-! ## White space -/

def blanks : List (Nat × Nat) :=
  [(0x9, 0xd), (0x1c, 0x20), (0x85, 0x85), (0xa0, 0xa0), (0x1680, 0x1680), (0x2000, 0x200a),
    (0x2028, 0x2029), (0x202f, 0x202f), (0x205f, 0x205f), (0x3000, 0x3000)]

def isBlank (c : Char) : Bool :=
  blanks.any fun (first, last) ↦ first ≤ c.toNat && c.toNat ≤ last

def isBlankAroundNumber (c : Char) : Bool :=
  isBlank c && !(0x1c ≤ c.toNat && c.toNat ≤ 0x1f)

/-- Drops the characters of a class at the end. -/
def dropEnd (drop : Char → Bool) (text : List Char) : List Char :=
  (text.reverse.dropWhile drop).reverse

/-- Drops the characters of a class at both ends. -/
def trim (drop : Char → Bool) (text : List Char) : List Char := dropEnd drop (text.dropWhile drop)

/-! ## Bytes as characters -/

def ofBytes (bytes : List UInt8) : String :=
  String.ofList (bytes.map fun byte ↦ Char.ofNat byte.toNat)

/-- The bytes of a text whose characters are all below 256; others are reduced to a byte. -/
def toBytes (text : String) : List UInt8 := text.toList.map fun c ↦ UInt8.ofNat c.toNat

end MiniA64.Text
