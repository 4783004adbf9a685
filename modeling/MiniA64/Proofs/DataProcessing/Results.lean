import MiniA64.Proofs.DataProcessing.Bitfields
import MiniA64.Proofs.DataProcessing.Meaning

/-!
# Results of the arithmetic

The operations of the machine are operations on words. Here each of them is an operation on the
numbers that the words stand for: a result is the residue of an exact integer, and the flags are
those of the exact sum or difference. The encodings that stand for another operation, a bitfield
move that shifts, an extract that rotates and a subtraction of a magnitude, are shown to agree
with it.
-/

namespace MiniA64.DataProcessing

open Width
open Arithmetic (Field)

variable {width : Width}

/-! ## Sums and differences -/

theorem ofInt_eq_zero_iff {value : Int} :
    BitVec.ofInt width.bits value = 0 ↔ width.reduce value = 0 := by
  rw [← toNat_ofInt, ← BitVec.toNat_inj]
  simp

theorem msb_ofInt (width : Width) (value : Int) :
    (BitVec.ofInt width.bits value).msb = decide (2 ^ (width.bits - 1) ≤ width.reduce value) := by
  rw [BitVec.msb_eq_decide, toNat_ofInt]

/-- The overflow of a sum with a carry: equal signs and a result of the other sign. -/
theorem overflow_eq (a b : BitVec width.bits) {carry : Int} (hcarry : carry = 0 ∨ carry = 1) :
    (a.msb == b.msb && (BitVec.ofInt width.bits (a.toNat + b.toNat + carry)).msb != a.msb) =
      !width.isSigned (width.signed a.toNat + width.signed b.toNat + carry) := by
  have ha := a.isLt
  have hb := b.isLt
  simp only [BitVec.msb_eq_decide, toNat_ofInt, Width.isSigned, Width.signed, Width.reduce]
  generalize a.toNat = a at *
  generalize b.toNat = b at *
  cases width <;> simp only [Width.bits] at * <;> rw [Bool.eq_iff_iff] <;> simp <;> omega

theorem addSub_add (a b : BitVec width.bits) :
    Arithmetic.addSub .add a b =
      (BitVec.ofInt width.bits (a.toNat + b.toNat), sumFlags width a.toNat b.toNat) := by
  have overflow := overflow_eq a b (.inl rfl)
  simp only [Int.add_zero] at overflow
  simp only [Arithmetic.addSub, Arithmetic.addWithCarry, Int.add_zero, overflow]
  simp only [sumFlags, msb_ofInt, ofInt_eq_zero_iff]
  norm_cast

/-- Adding the complement and one subtracts. -/
theorem addSub_sub (a b : BitVec width.bits) :
    Arithmetic.addSub .sub a b =
      (BitVec.ofInt width.bits (a.toNat - b.toNat), differenceFlags width a.toNat b.toNat) := by
  have ha := a.isLt
  have hb := b.isLt
  have complement : (~~~b).toNat = 2 ^ width.bits - 1 - b.toNat := BitVec.toNat_not
  have total : (a.toNat + (~~~b).toNat + 1 : Int) = a.toNat - b.toNat + (2 ^ width.bits : Nat) := by
    omega
  have result : BitVec.ofInt width.bits (a.toNat + (~~~b).toNat + 1) =
      BitVec.ofInt width.bits (a.toNat - b.toNat) := by
    rw [total]
    apply BitVec.eq_of_toNat_eq
    simp
  have overflow := overflow_eq a (~~~b) (.inr rfl)
  have signs : width.signed a.toNat + width.signed (~~~b).toNat + 1 =
      width.signed a.toNat - width.signed b.toNat := by
    simp only [Width.signed, complement]
    cases width <;> simp only [Width.bits] at * <;> omega
  rw [signs, result] at overflow
  have carry : (2 ^ width.bits : Int) ≤ a.toNat - b.toNat + (2 ^ width.bits : Nat) ↔
      b.toNat ≤ a.toNat := by
    push_cast
    omega
  simp only [Arithmetic.addSub, Arithmetic.addWithCarry, overflow, result]
  simp only [differenceFlags, total, carry, msb_ofInt, ofInt_eq_zero_iff]

/-! ## Residues of negative numbers -/

theorem reduce_neg {magnitude : Nat} (positive : 0 < magnitude)
    (small : magnitude < 2 ^ (width.bits - 1)) :
    width.reduce (-magnitude) = 2 ^ width.bits - magnitude := by
  rw [Width.reduce]
  cases width <;> simp only [Width.bits] at * <;> omega

theorem signed_reduce_neg {magnitude : Nat} (positive : 0 < magnitude)
    (small : magnitude < 2 ^ (width.bits - 1)) :
    width.signed (width.reduce (-magnitude)) = -width.signed magnitude := by
  rw [reduce_neg positive small, Width.signed, Width.signed]
  cases width <;> simp only [Width.bits] at * <;> omega

/-- Adding the residue of a negative number subtracts its magnitude, with the same flags. -/
theorem differenceFlags_eq_sumFlags {a magnitude : Nat}
    (positive : 0 < magnitude) (small : magnitude < 2 ^ (width.bits - 1)) :
    differenceFlags width a magnitude = sumFlags width a (width.reduce (-magnitude)) := by
  have carry : magnitude ≤ a ↔ 2 ^ width.bits ≤ a + width.reduce (-magnitude) := by
    rw [reduce_neg positive small]
    cases width <;> simp only [Width.bits] at * <;> omega
  simp only [differenceFlags, sumFlags, reduce_add_reduce, signed_reduce_neg positive small, carry,
    Int.sub_eq_add_neg]

/-- Subtracting the residue of a negative number adds its magnitude, with the same flags. -/
theorem sumFlags_eq_differenceFlags {a magnitude : Nat} (ha : a < 2 ^ width.bits)
    (positive : 0 < magnitude) (small : magnitude < 2 ^ (width.bits - 1)) :
    sumFlags width a magnitude = differenceFlags width a (width.reduce (-magnitude)) := by
  have carry : 2 ^ width.bits ≤ a + magnitude ↔ width.reduce (-magnitude) ≤ a := by
    rw [reduce_neg positive small]
    cases width <;> simp only [Width.bits] at * <;> omega
  simp only [differenceFlags, sumFlags, reduce_sub_reduce, signed_reduce_neg positive small, carry,
    Int.sub_neg]

/-! ## Shifts -/

/-- Rotating puts the low part above the high part. -/
theorem toNat_rotateRight (value : BitVec width.bits) {amount : Nat} (h : amount < width.bits) :
    (value.rotateRight amount).toNat =
      value.toNat / 2 ^ amount + value.toNat % 2 ^ amount * 2 ^ (width.bits - amount) := by
  have split : 2 ^ width.bits = 2 ^ amount * 2 ^ (width.bits - amount) := by
    rw [← Nat.pow_add, Nat.add_sub_cancel' (Nat.le_of_lt h)]
  have high : value.toNat / 2 ^ amount < 2 ^ (width.bits - amount) := by
    apply Nat.div_lt_of_lt_mul
    rw [← split]
    exact value.isLt
  calc (value.rotateRight amount).toNat
    _ = value.toNat / 2 ^ amount ||| value.toNat * 2 ^ (width.bits - amount) % 2 ^ width.bits := by
      rw [BitVec.toNat_rotateRight, Nat.mod_eq_of_lt h, Nat.shiftRight_eq_div_pow,
        Nat.shiftLeft_eq]
    _ = (value.toNat % 2 ^ amount) <<< (width.bits - amount) ||| value.toNat / 2 ^ amount := by
      rw [split, Nat.mul_mod_mul_right, Nat.or_comm, ← Nat.shiftLeft_eq]
    _ = _ := by rw [← Nat.shiftLeft_add_eq_or_of_lt high, Nat.shiftLeft_eq, Nat.add_comm]

theorem toNat_shift (kind : ShiftKind) (value : BitVec width.bits) {amount : Nat}
    (h : amount < width.bits) :
    (Arithmetic.shift kind value amount).toNat = shifted width kind amount value.toNat := by
  cases kind with
  | lsl =>
    have product : (value.toNat * 2 ^ amount : Int) = (value.toNat * 2 ^ amount : Nat) := by
      norm_cast
    simp only [Arithmetic.shift, shifted, Nat.mod_eq_of_lt h, BitVec.toNat_shiftLeft,
      Nat.shiftLeft_eq, product, reduce_natCast]
  | lsr =>
    simp only [Arithmetic.shift, shifted, Nat.mod_eq_of_lt h, BitVec.toNat_ushiftRight,
      Nat.shiftRight_eq_div_pow]
  | asr =>
    simp only [Arithmetic.shift, shifted, Nat.mod_eq_of_lt h, BitVec.sshiftRight, toNat_ofInt,
      toInt_eq_signed, Int.shiftRight_eq_div_pow]
    norm_cast
  | ror =>
    rw [Arithmetic.shift, shifted, Nat.mod_eq_of_lt h]
    exact toNat_rotateRight value h

theorem shift_mod (kind : ShiftKind) (value : BitVec width.bits) (amount : Nat) :
    Arithmetic.shift kind value (amount % width.bits) = Arithmetic.shift kind value amount := by
  cases kind <;> simp only [Arithmetic.shift, Nat.mod_mod]

/-! ## Shifts by a constant -/

theorem bitfield_eq_lsr (value : BitVec width.bits) (amount : Fin width.bits) :
    Arithmetic.bitfield false value amount (width.bits - 1) =
      Arithmetic.shift .lsr value amount := by
  have below := amount.isLt
  apply BitVec.eq_of_getLsbD_eq
  intro i inside
  rw [Arithmetic.getLsbD_bitfield _ _ _ _ inside, Arithmetic.shift, Nat.mod_eq_of_lt below,
    BitVec.getLsbD_ushiftRight, Field.moved, if_pos (by omega), Field.result]
  by_cases within : amount.val + i < width.bits
  · simp [show i < width.bits - 1 - amount.val + 1 by omega]
  · simp [show ¬i < width.bits - 1 - amount.val + 1 by omega,
      BitVec.getLsbD_of_ge _ _ (Nat.le_of_not_lt within)]

theorem bitfield_eq_asr (value : BitVec width.bits) (amount : Fin width.bits) :
    Arithmetic.bitfield true value amount (width.bits - 1) =
      Arithmetic.shift .asr value amount := by
  have below := amount.isLt
  have top : amount.val + (width.bits - 1 - amount.val) = width.bits - 1 := by omega
  apply BitVec.eq_of_getLsbD_eq
  intro i inside
  rw [Arithmetic.getLsbD_bitfield _ _ _ _ inside, Arithmetic.shift, Nat.mod_eq_of_lt below,
    BitVec.getLsbD_sshiftRight, Field.moved, if_pos (by omega), Field.result]
  by_cases within : amount.val + i < width.bits
  · simp [show i < width.bits - 1 - amount.val + 1 by omega, within, Nat.not_le_of_lt inside]
  · simp [show ¬i < width.bits - 1 - amount.val + 1 by omega, within, Nat.not_le_of_lt inside,
      BitVec.msb_eq_getLsbD_last, top]

/-- A shift to the left by zero moves the whole word down by nothing. -/
theorem moved_left {amount : Nat} (below : amount < width.bits) :
    Field.moved width.bits ((width.bits - amount) % width.bits) (width.bits - 1 - amount) =
      ⟨width.bits - amount, 0, amount⟩ := by
  rcases Nat.eq_zero_or_pos amount with rfl | positive
  · rw [Nat.sub_zero, Nat.mod_self, Field.moved, if_pos (Nat.zero_le _)]
    congr 1
    omega
  · rw [Nat.mod_eq_of_lt (by omega), Field.moved, if_neg (by omega)]
    congr 1 <;> omega

theorem bitfield_eq_lsl (value : BitVec width.bits) (amount : Fin width.bits) :
    Arithmetic.bitfield false value ((width.bits - amount) % width.bits)
      (width.bits - 1 - amount) = Arithmetic.shift .lsl value amount := by
  have below := amount.isLt
  apply BitVec.eq_of_getLsbD_eq
  intro i inside
  rw [Arithmetic.getLsbD_bitfield _ _ _ _ inside, moved_left below, Arithmetic.shift,
    Nat.mod_eq_of_lt below, BitVec.getLsbD_shiftLeft, Field.result]
  simp [inside]

theorem extract_eq_ror (value : BitVec width.bits) (amount : Fin width.bits) :
    Arithmetic.extract value value amount = Arithmetic.shift .ror value amount := by
  have below := amount.isLt
  rw [Arithmetic.shift, Nat.mod_eq_of_lt below]
  apply BitVec.eq_of_getLsbD_eq
  intro i hi
  simp only [Arithmetic.extract, BitVec.getLsbD_extractLsb', BitVec.getLsbD_append,
    BitVec.getLsbD_rotateRight, Nat.mod_eq_of_lt below, hi, decide_true, Bool.true_and]
  by_cases low : amount.val + i < width.bits
  · simp [low, show i < width.bits - amount.val by omega]
  · simp [low, show ¬i < width.bits - amount.val by omega,
      show amount.val + i - width.bits = i - (width.bits - amount.val) by omega]

/-! ## Wide moves -/

variable (window : Fin (width.bits / 16)) (immediate : BitVec 16)

/-- A window ends inside the operand. -/
theorem window_end_le : 16 * window.val + 16 ≤ width.bits := by
  have := window.isLt
  cases width <;> simp only [Width.bits] at * <;> omega

theorem toNat_place :
    (WindowMove.place immediate window : BitVec width.bits).toNat =
      immediate.toNat * 2 ^ (16 * window.val) := by
  have inside := window_end_le window
  have small : immediate.toNat * 2 ^ (16 * window.val) < 2 ^ width.bits := by
    calc immediate.toNat * 2 ^ (16 * window.val)
        < 2 ^ 16 * 2 ^ (16 * window.val) :=
          Nat.mul_lt_mul_of_pos_right immediate.isLt (Nat.two_pow_pos _)
      _ = 2 ^ (16 * window.val + 16) := by rw [← Nat.pow_add, Nat.add_comm]
      _ ≤ 2 ^ width.bits := Nat.pow_le_pow_right (by decide) inside
  have narrow : immediate.toNat % 2 ^ width.bits = immediate.toNat :=
    Nat.mod_eq_of_lt (Nat.lt_of_le_of_lt (Nat.le_mul_of_pos_right _ (Nat.two_pow_pos _)) small)
  calc (WindowMove.place immediate window : BitVec width.bits).toNat
    _ = (immediate.toNat % 2 ^ width.bits) * 2 ^ (16 * window.val) % 2 ^ width.bits := by
      rw [WindowMove.place, BitVec.toNat_shiftLeft, BitVec.toNat_setWidth, Nat.shiftLeft_eq]
    _ = _ := by rw [narrow, Nat.mod_eq_of_lt small]

theorem toNat_movk (old : BitVec width.bits) :
    (Arithmetic.moveWide .movk window immediate old).toNat =
      withWindow (16 * window.val) old.toNat (immediate.toNat * 2 ^ (16 * window.val)) := by
  have inside := window_end_le window
  have low : old.toNat % 2 ^ (16 * window.val) < 2 ^ (16 * window.val) :=
    Nat.mod_lt _ (Nat.two_pow_pos _)
  have parts : withWindow (16 * window.val) old.toNat (immediate.toNat * 2 ^ (16 * window.val)) =
      ((old.toNat >>> (16 * window.val + 16)) <<< 16 ||| immediate.toNat) <<< (16 * window.val) |||
        old.toNat % 2 ^ (16 * window.val) := by
    symm
    calc _
      _ = ((old.toNat >>> (16 * window.val + 16)) <<< 16 + immediate.toNat) <<< (16 * window.val) +
          old.toNat % 2 ^ (16 * window.val) := by
        rw [← Nat.shiftLeft_add_eq_or_of_lt immediate.isLt, ← Nat.shiftLeft_add_eq_or_of_lt low]
      _ = _ := by
        rw [withWindow, Nat.shiftRight_eq_div_pow, Nat.shiftLeft_eq, Nat.shiftLeft_eq, Nat.add_mul,
          Nat.mul_assoc, ← Nat.pow_add, Nat.add_comm 16]
  rw [parts]
  apply Nat.eq_of_testBit_eq
  intro i
  simp only [Arithmetic.moveWide, WindowMove.place, BitVec.testBit_toNat, BitVec.getLsbD_or,
    BitVec.getLsbD_and, BitVec.getLsbD_not, BitVec.getLsbD_shiftLeft, BitVec.getLsbD_setWidth,
    BitVec.getLsbD_allOnes, Nat.testBit_or, Nat.testBit_shiftLeft, Nat.testBit_shiftRight,
    Nat.testBit_mod_two_pow]
  rcases Nat.lt_or_ge i (16 * window.val) with below | above
  · simp [below, show ¬16 * window.val ≤ i by omega, show i < width.bits by omega]
  rcases Nat.lt_or_ge i (16 * window.val + 16) with within | beyond
  · simp [above, show ¬i < 16 * window.val by omega, show i < width.bits by omega,
      show i - 16 * window.val < width.bits by omega, show i - 16 * window.val < 16 by omega,
      show ¬16 ≤ i - 16 * window.val by omega]
  · simp [above, show ¬i < 16 * window.val by omega, show ¬i - 16 * window.val < 16 by omega,
      show 16 ≤ i - 16 * window.val by omega,
      show 16 * window.val + 16 + (i - 16 * window.val - 16) = i by omega]
    exact BitVec.lt_of_getLsbD

theorem toNat_movz (old : BitVec width.bits) :
    (Arithmetic.moveWide .movz window immediate old).toNat =
      immediate.toNat * 2 ^ (16 * window.val) :=
  toNat_place window immediate

theorem toNat_movn (old : BitVec width.bits) :
    (Arithmetic.moveWide .movn window immediate old).toNat =
      complement width (immediate.toNat * 2 ^ (16 * window.val)) := by
  rw [Arithmetic.moveWide, BitVec.toNat_not, toNat_place, complement]

theorem place_of_window? {value : BitVec width.bits} {window : Fin (width.bits / 16)}
    (h : WindowMove.window? value = some window) :
    WindowMove.place (WindowMove.windowOf value window) window = value := by
  rw [WindowMove.window?] at h
  have found := List.find?_some h
  exact of_decide_eq_true found

/-- The move that is found for a value gives the value. -/
theorem value_of_ofValue? {value : BitVec width.bits} {move : WindowMove width.bits}
    (h : WindowMove.ofValue? value = some move) : move.value = value := by
  rw [WindowMove.ofValue?] at h
  split at h
  · rename_i window found
    cases h
    exact place_of_window? found
  · obtain ⟨window, found, rfl⟩ := Option.map_eq_some_iff.mp h
    simp only [WindowMove.value, if_true, place_of_window? found, BitVec.not_not]

theorem moveWide_eq_value (move : WindowMove width.bits) (old : BitVec width.bits) :
    Arithmetic.moveWide move.op move.window move.immediate old = move.value := by
  obtain ⟨complement, window, immediate⟩ := move
  cases complement <;> rfl

/-! ## Logic, products and quotients -/

theorem toNat_logical (name : LogicalName) (a b : BitVec width.bits) :
    (Arithmetic.logical name.operation.1 a (if name.operation.2 then ~~~b else b)).toNat =
      logicalResult width name a.toNat b.toNat := by
  cases name <;>
    simp [LogicalName.operation, Arithmetic.logical, logicalResult, complement, BitVec.toNat_not]

theorem logicalFlags_eq (result : BitVec width.bits) :
    Arithmetic.logicalFlags result = logicalFlags width result.toNat := by
  simp [Arithmetic.logicalFlags, logicalFlags, BitVec.msb_eq_decide, ← BitVec.toNat_inj]

theorem toNat_udiv (a b : BitVec width.bits) :
    (Arithmetic.twoSource .udiv a b).toNat = width.reduce (a.toNat / b.toNat : Nat) := by
  rw [Arithmetic.twoSource, BitVec.toNat_ofNat, reduce_natCast]

theorem toNat_sdiv (a b : BitVec width.bits) :
    (Arithmetic.twoSource .sdiv a b).toNat =
      width.reduce ((width.signed a.toNat).tdiv (width.signed b.toNat)) := by
  rw [Arithmetic.twoSource, toNat_ofInt, toInt_eq_signed, toInt_eq_signed]

theorem toNat_shift_register (kind : ShiftKind) (a b : BitVec width.bits) :
    (Arithmetic.twoSource (.shift kind) a b).toNat =
      shifted width kind (b.toNat % width.bits) a.toNat := by
  rw [Arithmetic.twoSource, ← shift_mod, toNat_shift kind a (Nat.mod_lt _ width.bits_pos)]

theorem toNat_multiply (a b : BitVec width.bits) :
    (Arithmetic.multiplyAdd false 0 a b).toNat = width.reduce (a.toNat * b.toNat) := by
  have product : (a.toNat * b.toNat : Int) = (a.toNat * b.toNat : Nat) := by norm_cast
  rw [product, reduce_natCast]
  simp [Arithmetic.multiplyAdd]

end MiniA64.DataProcessing
