import MiniA64.Numeral

/-!
# Words and their bytes

Numbers are stored with the least significant byte first. An instruction is one 32-bit word. A
field is named by its lowest bit and its width, so an encoding is a concatenation of fields and a
decoder reads the same fields back.
-/

namespace MiniA64

/-- The number that bytes denote, least significant first. -/
def littleEndian : List UInt8 → Nat
  | [] => 0
  | byte :: rest => byte.toNat + 256 * littleEndian rest

/-- The low bytes of a number, least significant first. -/
def toLittleEndian : Nat → Nat → List UInt8
  | 0, _ => []
  | count + 1, value => UInt8.ofNat value :: toLittleEndian count (value / 256)

abbrev Word := BitVec 32

namespace Word

def field (word : Word) (low width : Nat) : BitVec width := word.extractLsb' low width

def bit (word : Word) (index : Nat) : Bool := word.getLsbD index

theorem toNat_field (word : Word) (low width : Nat) :
    (word.field low width).toNat = word.toNat / 2 ^ low % 2 ^ width := by
  simp [field, BitVec.extractLsb'_toNat, Nat.shiftRight_eq_div_pow]

/-- The four bytes of a word in memory order, least significant first. -/
def toBytes (word : Word) : List UInt8 :=
  (List.range 4).map fun i ↦ UInt8.ofNat (word.field (8 * i) 8).toNat

/-- The words that bytes in memory order hold. A part of a word at the end is left out. -/
def listOfBytes : List UInt8 → List Word
  | a :: b :: c :: d :: rest => BitVec.ofNat 32 (littleEndian [a, b, c, d]) :: listOfBytes rest
  | _ => []

end Word

end MiniA64
