import MiniA64.Isa.Word

/-!
# Bytes of a number

A number and its bytes, the lowest first. Byte by byte the bytes are the digits of the number to
the base 256, and only as many bytes of a number are used as are asked for.
-/

namespace MiniA64

theorem littleEndian_append_singleton (data : List UInt8) (byte : UInt8) :
    littleEndian (data ++ [byte]) = littleEndian data + 256 ^ data.length * byte.toNat := by
  induction data with
  | nil => simp [littleEndian]
  | cons first rest ih =>
    simp only [List.cons_append, littleEndian, ih, List.length_cons, Nat.pow_succ, Nat.mul_add]
    rw [Nat.mul_comm (256 ^ rest.length) 256, Nat.mul_assoc, Nat.add_assoc]

@[simp] theorem length_toLittleEndian (count value : Nat) :
    (toLittleEndian count value).length = count := by
  induction count generalizing value with
  | zero => rfl
  | succ count ih => simp [toLittleEndian, ih]

theorem getElem?_toLittleEndian (count value index : Nat) :
    (toLittleEndian count value)[index]? =
      if index < count then some (UInt8.ofNat (value / 256 ^ index)) else none := by
  induction count generalizing value index with
  | zero => rfl
  | succ count ih =>
    cases index with
    | zero => simp [toLittleEndian]
    | succ index =>
      simp only [toLittleEndian, List.getElem?_cons_succ, ih, Nat.pow_succ,
        Nat.div_div_eq_div_mul, Nat.add_lt_add_iff_right, Nat.mul_comm 256]

/-- Only so many low bytes of a number reach its bytes up to there. -/
theorem ofNat_mod_div (value : Nat) {index bits : Nat} (inside : 8 * (index + 1) ≤ bits) :
    UInt8.ofNat (value % 2 ^ bits / 256 ^ index) = UInt8.ofNat (value / 256 ^ index) := by
  have split : 2 ^ bits = 256 ^ index * (256 * 2 ^ (bits - 8 * (index + 1))) := by
    symm
    calc 256 ^ index * (256 * 2 ^ (bits - 8 * (index + 1)))
      _ = 256 ^ (index + 1) * 2 ^ (bits - 8 * (index + 1)) := by
        rw [← Nat.mul_assoc, ← Nat.pow_succ]
      _ = 2 ^ (8 * (index + 1)) * 2 ^ (bits - 8 * (index + 1)) := by
        rw [show 256 = 2 ^ 8 from rfl, ← Nat.pow_mul]
      _ = 2 ^ bits := by rw [← Nat.pow_add, Nat.add_sub_cancel' inside]
  apply UInt8.toNat_inj.mp
  rw [UInt8.toNat_ofNat', UInt8.toNat_ofNat', split, Nat.mod_mul_right_div_self,
    Nat.mod_mul_right_mod]

namespace Word

/-- The bytes of a word in memory order denote its number. -/
theorem littleEndian_toBytes (word : Word) : littleEndian word.toBytes = word.toNat := by
  have below := word.isLt
  have positions : List.range 4 = [0, 1, 2, 3] := rfl
  simp only [toBytes, positions, List.map_cons, List.map_nil, littleEndian, toNat_field,
    UInt8.toNat_ofNat']
  omega

theorem toLittleEndian_toNat (word : Word) : toLittleEndian 4 word.toNat = word.toBytes := by
  have positions : List.range 4 = [0, 1, 2, 3] := rfl
  have bytes (index : Nat) :
      UInt8.ofNat (word.field (8 * index) 8).toNat = UInt8.ofNat (word.toNat / 2 ^ (8 * index)) := by
    apply UInt8.toNat_inj.mp
    rw [toNat_field, UInt8.toNat_ofNat', UInt8.toNat_ofNat', Nat.mod_mod]
  simp only [toBytes, positions, List.map_cons, List.map_nil, bytes, toLittleEndian,
    Nat.div_div_eq_div_mul]
  simp

theorem listOfBytes_append (word : Word) (rest : List UInt8) :
    listOfBytes (word.toBytes ++ rest) = word :: listOfBytes rest := by
  have number := word.littleEndian_toBytes
  have positions : List.range 4 = [0, 1, 2, 3] := rfl
  simp only [toBytes, positions, List.map_cons, List.map_nil] at number ⊢
  simp only [List.cons_append, List.nil_append, listOfBytes, number, BitVec.ofNat_toNat,
    BitVec.setWidth_eq]

/-- The words of some bytes are those that the bytes were made of. -/
theorem listOfBytes_flatMap (words : List Word) : listOfBytes (words.flatMap toBytes) = words := by
  induction words with
  | nil => rfl
  | cons word words ih => rw [List.flatMap_cons, listOfBytes_append, ih]

@[simp] theorem length_toBytes (word : Word) : word.toBytes.length = 4 := by
  simp [toBytes]

end Word

end MiniA64
