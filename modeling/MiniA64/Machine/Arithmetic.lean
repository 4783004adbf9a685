import MiniA64.Isa.Condition
import MiniA64.Isa.MoveWide

/-!
# Data processing on words of any width

The results of the data-processing instructions as functions of their operands, for operands of
any number of bits.
-/

namespace MiniA64.Arithmetic

variable {bits : Nat}

/--
The sum of two words and a carry, with its flags: sign, zero, carry out of the top bit, and
overflow of the signed sum. A difference is the sum with the complement and a carry, so that
the carry flag then means that nothing was borrowed.
-/
def addWithCarry (a b : BitVec bits) (carry : Int) : BitVec bits × Flags :=
  let total := a.toNat + b.toNat + carry
  let result := BitVec.ofInt bits total
  (result,
    { n := result.msb
      z := result = 0
      c := 2 ^ bits ≤ total
      v := a.msb == b.msb && result.msb != a.msb })

def addSub (op : AddSubOp) (a b : BitVec bits) : BitVec bits × Flags :=
  match op with
  | .add => addWithCarry a b 0
  | .sub => addWithCarry a (~~~b) 1

/-- Shifts by an amount that counts modulo the width. -/
def shift (kind : ShiftKind) (value : BitVec bits) (amount : Nat) : BitVec bits :=
  match kind with
  | .lsl => value <<< (amount % bits)
  | .lsr => value >>> (amount % bits)
  | .asr => value.sshiftRight (amount % bits)
  | .ror => value.rotateRight (amount % bits)

/-- Widens a field, filling the upper bits with zeros or with its top bit. -/
def widen {field : Nat} (signed : Bool) (value : BitVec field) : BitVec bits :=
  if signed then value.signExtend bits else value.setWidth bits

/--
Moves a bit field. If the field's last bit is not below the first bit named by the rotation, the
bits between them move to the bottom; otherwise the bits up to the last move to the top part.
-/
def bitfield (signed : Bool) (value : BitVec bits) (rotate last : Nat) : BitVec bits :=
  if rotate ≤ last then widen signed (value.extractLsb' rotate (last - rotate + 1))
  else widen signed (value.extractLsb' 0 (last + 1)) <<< (bits - rotate)

def logical (op : LogicalOp) (a b : BitVec bits) : BitVec bits :=
  match op with
  | .and => a &&& b
  | .orr => a ||| b
  | .eor => a ^^^ b
  | .ands => a &&& b

/-- The flags of a logical result. -/
def logicalFlags (result : BitVec bits) : Flags :=
  { n := result.msb, z := result = 0, c := false, v := false }

def moveWide (op : MoveWideOp) (window : Fin (bits / 16)) (immediate : BitVec 16)
    (old : BitVec bits) : BitVec bits :=
  match op with
  | .movn => ~~~(WindowMove.place immediate window)
  | .movz => WindowMove.place immediate window
  | .movk =>
    old &&& ~~~(WindowMove.place (BitVec.allOnes 16) window) ||| WindowMove.place immediate window

/-- The low part of two words side by side, from a bit of the lower one. -/
def extract (high low : BitVec bits) (first : Nat) : BitVec bits :=
  (high ++ low).extractLsb' first bits

/-- Divisions round toward zero; division by zero gives zero. -/
def twoSource (op : TwoSourceOp) (a b : BitVec bits) : BitVec bits :=
  match op with
  | .udiv => BitVec.ofNat bits (a.toNat / b.toNat)
  | .sdiv => BitVec.ofInt bits (a.toInt.tdiv b.toInt)
  | .shift kind => shift kind a b.toNat

def multiplyAdd (subtract : Bool) (accumulator a b : BitVec bits) : BitVec bits :=
  if subtract then accumulator - a * b else accumulator + a * b

end MiniA64.Arithmetic
