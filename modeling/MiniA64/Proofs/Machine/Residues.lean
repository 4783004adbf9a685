import MiniA64.Isa.Register

/-!
# Residues

Registers hold residues of integers at an operand width. The word that an integer is reduced to
and the signed number that a word is read as are stated here for residues, which are plain numbers.
-/

namespace MiniA64

namespace Width

/-- The residue of an integer at an operand width. -/
def reduce (width : Width) (value : Int) : Nat := (value % 2 ^ width.bits).toNat

/-- A residue read as a signed number. -/
def signed (width : Width) (value : Nat) : Int :=
  if value < 2 ^ (width.bits - 1) then value else value - 2 ^ width.bits

def isSigned (width : Width) (value : Int) : Bool :=
  -2 ^ (width.bits - 1) ≤ value && value < 2 ^ (width.bits - 1)

variable {width : Width}

theorem toNat_ofInt (width : Width) (value : Int) :
    (BitVec.ofInt width.bits value).toNat = width.reduce value := by
  rw [BitVec.toNat_ofInt, Width.reduce]
  norm_cast

theorem reduce_natCast (width : Width) (value : Nat) :
    width.reduce value = value % 2 ^ width.bits := by
  rw [Width.reduce]
  norm_cast

@[simp] theorem reduce_toNat (value : BitVec width.bits) :
    width.reduce value.toNat = value.toNat := by
  rw [reduce_natCast, Nat.mod_eq_of_lt value.isLt]

/-- A result that is a residue already. -/
theorem toNat_eq_reduce {value : BitVec width.bits} {result : Nat} (h : value.toNat = result) :
    value.toNat = width.reduce result := by
  rw [← h, reduce_toNat]

theorem toInt_eq_signed (value : BitVec width.bits) :
    value.toInt = width.signed value.toNat := by
  rw [BitVec.toInt_eq_msb_cond, BitVec.msb_eq_decide, Width.signed]
  have := value.isLt
  cases width <;> simp only [Width.bits, decide_eq_true_eq] at * <;> split <;> split <;> omega

theorem reduce_add_reduce (a b : Int) :
    width.reduce (a + width.reduce b) = width.reduce (a + b) := by
  simp only [Width.reduce]
  cases width <;> simp only [Width.bits] <;> omega

theorem reduce_sub_reduce (a b : Int) :
    width.reduce (a - width.reduce b) = width.reduce (a - b) := by
  simp only [Width.reduce]
  cases width <;> simp only [Width.bits] <;> omega

end Width

end MiniA64
