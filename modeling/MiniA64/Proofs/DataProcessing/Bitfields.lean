import MiniA64.Machine.Arithmetic

/-!
# Bit fields

A bit field move takes a field of a word to another place: bits from the middle go to the bottom, or
bits from the bottom go up. Below the field the result is zero, and above it the result is zero or
repeats the top bit of the field. Each bit of the result is given here by the bit of the value that
it comes from.
-/

namespace MiniA64

namespace Arithmetic

/-- A bit of an integer, with the sign repeated without end. -/
def bitOf (value : Int) (index : Nat) : Bool := value / 2 ^ index % 2 = 1

/-- A field of consecutive bits, where it comes from and where it goes. -/
structure Field where
  length : Nat
  source : Nat
  target : Nat

namespace Field

/-- The field that a rotation and a last bit name. -/
def moved (bits rotate last : Nat) : Field :=
  if rotate ≤ last then ⟨last - rotate + 1, rotate, 0⟩ else ⟨last + 1, 0, bits - rotate⟩

/-- What becomes of a value with these bits: zeros below the field, and above it zeros or the top
bit of the field. -/
def result (field : Field) (signed : Bool) (value : Nat → Bool) (index : Nat) : Bool :=
  if index < field.target then false
  else if index < field.target + field.length then value (field.source + (index - field.target))
  else signed && value (field.source + (field.length - 1))

theorem length_moved_pos (bits rotate last : Nat) : 0 < (moved bits rotate last).length := by
  rw [moved]
  split <;> exact Nat.succ_pos _

/-- The result is made of the bits of the field only. -/
theorem result_congr {field : Field} (some : 0 < field.length) {first second : Nat → Bool}
    (same : ∀ index < field.source + field.length, first index = second index) (signed : Bool)
    (index : Nat) : field.result signed first index = field.result signed second index := by
  unfold result
  split
  · rfl
  split
  · exact same _ (by omega)
  · rw [same _ (by omega)]

end Field

variable {bits : Nat}

/-! ## Bits of words -/

/-- A digit of a residue is a digit of the number. -/
theorem emod_two_pow_ediv (value : Int) {i : Nat} (inside : i < bits) :
    value % 2 ^ bits / 2 ^ i % 2 = value / 2 ^ i % 2 := by
  have positive : (0 : Int) < 2 ^ i := Int.pow_pos (by decide)
  have modulus : (2 : Int) ^ bits = 2 ^ i * (2 * 2 ^ (bits - (i + 1))) := by
    rw [← Int.mul_assoc, ← Int.pow_succ, ← Int.pow_add, Nat.add_sub_cancel' inside]
  have whole := Int.emod_add_mul_ediv value (2 ^ bits)
  generalize value % 2 ^ bits = low at *
  generalize value / 2 ^ bits = high at *
  calc low / 2 ^ i % 2
    _ = (low / 2 ^ i + 2 * (2 ^ (bits - (i + 1)) * high)) % 2 :=
      (Int.add_mul_emod_self_left ..).symm
    _ = (low + 2 ^ i * (2 * (2 ^ (bits - (i + 1)) * high))) / 2 ^ i % 2 := by
      rw [Int.add_mul_ediv_left _ _ (Int.ne_of_gt positive)]
    _ = value / 2 ^ i % 2 := by rw [← whole, modulus, Int.mul_assoc, Int.mul_assoc]

theorem getLsbD_ofInt (value : Int) {i : Nat} (inside : i < bits) :
    (BitVec.ofInt bits value).getLsbD i = bitOf value i := by
  have residue : ((BitVec.ofInt bits value).toNat : Int) = value % 2 ^ bits := by
    have positive : (0 : Int) < 2 ^ bits := Int.pow_pos (by decide)
    rw [BitVec.toNat_ofInt, Int.natCast_pow]
    exact Int.toNat_of_nonneg (Int.emod_nonneg _ (Int.ne_of_gt positive))
  calc (BitVec.ofInt bits value).getLsbD i
    _ = decide ((BitVec.ofInt bits value).toNat / 2 ^ i % 2 = 1) := by
      rw [← BitVec.testBit_toNat, Nat.testBit_eq_decide_div_mod_eq]
    _ = decide (((BitVec.ofInt bits value).toNat : Int) / 2 ^ i % 2 = 1) := by norm_cast
    _ = bitOf value i := by rw [residue, emod_two_pow_ediv value inside, bitOf]

theorem getLsbD_widen (signed : Bool) {length : Nat} (field : BitVec length) {i : Nat}
    (inside : i < bits) :
    (widen signed field : BitVec bits).getLsbD i =
      if i < length then field.getLsbD i else signed && field.getLsbD (length - 1) := by
  cases signed with
  | true =>
    simp only [widen, if_true, BitVec.getLsbD_signExtend, BitVec.msb_eq_getLsbD_last, inside,
      decide_true, Bool.true_and]
  | false =>
    simp only [widen, Bool.false_eq_true, if_false, BitVec.getLsbD_setWidth, inside, decide_true,
      Bool.true_and, Bool.false_and]
    split
    · rfl
    · exact BitVec.getLsbD_of_ge _ _ (by omega)

/-- A field that is taken out of a word, widened and put in its place. -/
theorem getLsbD_placed (field : Field) (some : 0 < field.length) (signed : Bool)
    (value : BitVec bits) {i : Nat} (inside : i < bits) :
    ((widen signed (value.extractLsb' field.source field.length) : BitVec bits) <<<
        field.target).getLsbD i = field.result signed value.getLsbD i := by
  rw [BitVec.getLsbD_shiftLeft, getLsbD_widen signed _ (by omega), Field.result]
  simp only [BitVec.getLsbD_extractLsb', inside, decide_true, Bool.true_and]
  by_cases below : i < field.target
  · simp [below]
  by_cases within : i < field.target + field.length
  · simp [below, within, show i - field.target < field.length by omega]
  · simp [below, within, show ¬i - field.target < field.length by omega,
      show field.length - 1 < field.length by omega]

/-- Both cases of a bit field move put a field in its place. -/
theorem bitfield_eq_widen (signed : Bool) (value : BitVec bits) (rotate last : Nat) :
    bitfield signed value rotate last =
      widen signed (value.extractLsb' (Field.moved bits rotate last).source
        (Field.moved bits rotate last).length) <<< (Field.moved bits rotate last).target := by
  unfold bitfield Field.moved
  by_cases extracts : rotate ≤ last
  · rw [if_pos extracts, if_pos extracts, BitVec.shiftLeft_zero]
  · rw [if_neg extracts, if_neg extracts]

/-- Each bit of a moved field is a bit of the word that it is moved in. -/
theorem getLsbD_bitfield (signed : Bool) (value : BitVec bits) (rotate last : Nat) {i : Nat}
    (inside : i < bits) :
    (bitfield signed value rotate last).getLsbD i =
      (Field.moved bits rotate last).result signed value.getLsbD i := by
  rw [bitfield_eq_widen]
  exact getLsbD_placed _ (Field.length_moved_pos bits rotate last) signed value inside

/-- The same with the bits of a number, of which the word has the lowest ones. -/
theorem getLsbD_bitfield_ofInt (signed : Bool) (value : Int) {rotate last : Nat}
    (below : last < bits) {i : Nat} (inside : i < bits) :
    (bitfield signed (BitVec.ofInt bits value) rotate last).getLsbD i =
      (Field.moved bits rotate last).result signed (bitOf value) i := by
  have within : (Field.moved bits rotate last).source + (Field.moved bits rotate last).length ≤
      bits := by
    unfold Field.moved
    split <;> dsimp only <;> omega
  rw [getLsbD_bitfield signed _ rotate last inside]
  apply Field.result_congr (Field.length_moved_pos bits rotate last)
  intro index inField
  exact getLsbD_ofInt value (Nat.lt_of_lt_of_le inField within)

end Arithmetic

end MiniA64
