import MiniA64.Isa.Instruction

/-!
# Constants in one instruction

A constant fits a single move when all its set bits lie in one aligned 16-bit window, or when
those of its complement do. The direct form is preferred to the complement, and of several
windows the lowest is taken.
-/

namespace MiniA64

/-- A move that writes one window, directly or complemented. -/
structure WindowMove (bits : Nat) where
  complement : Bool
  window : Fin (bits / 16)
  immediate : BitVec 16
  deriving DecidableEq, Repr

namespace WindowMove

def op {bits : Nat} (move : WindowMove bits) : MoveWideOp :=
  if move.complement then .movn else .movz

/-- The part of a value inside a window. -/
def windowOf {bits : Nat} (value : BitVec bits) (window : Fin (bits / 16)) : BitVec 16 :=
  value.extractLsb' (16 * window.val) 16

/-- A window's bits in their place, with zeros elsewhere. -/
def place {bits : Nat} (immediate : BitVec 16) (window : Fin (bits / 16)) : BitVec bits :=
  immediate.setWidth bits <<< (16 * window.val)

/-- The lowest window that holds all set bits of a value. -/
def window? {bits : Nat} (value : BitVec bits) : Option (Fin (bits / 16)) :=
  (List.finRange (bits / 16)).find? fun window ↦ place (windowOf value window) window = value

def value {bits : Nat} (move : WindowMove bits) : BitVec bits :=
  let direct := place move.immediate move.window
  if move.complement then ~~~direct else direct

def ofValue? {bits : Nat} (value : BitVec bits) : Option (WindowMove bits) :=
  match window? value with
  | some window => some ⟨false, window, windowOf value window⟩
  | none => (window? (~~~value)).map fun window ↦ ⟨true, window, windowOf (~~~value) window⟩

end WindowMove

end MiniA64
