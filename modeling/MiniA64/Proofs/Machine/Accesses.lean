import MiniA64.Machine.Memory
import MiniA64.Proofs.Bytes

/-!
# Bytes in memory

Reading and writing go through lists of bytes. Here they are stated byte by byte: a read gives the
number whose bytes lie in memory, and a write puts the bytes of a number there and leaves all
other bytes alone.
-/

namespace MiniA64

namespace Memory

variable {memory : Memory} {offset count : Nat}

/-- The number in some bytes from an offset on, the first byte lowest. -/
def loaded (memory : Memory) (offset : Nat) : Nat → Nat
  | 0 => 0
  | count + 1 =>
    memory.loaded offset count + 256 ^ count * (memory.bytes.getD (offset + count) 0).toNat

/-- Memory with the low bytes of a number from an offset on, the lowest byte first. -/
def stored (memory : Memory) (offset count value : Nat) : Memory :=
  { memory with
    bytes := Array.ofFn fun index : Fin memory.bytes.size ↦
      if offset ≤ index ∧ index < offset + count then UInt8.ofNat (value / 256 ^ (index - offset))
      else memory.bytes[index] }

/-- An accepted access lies inside the array. -/
theorem end_le_of_translate {address : Int} (h : memory.translate address count = some offset) :
    offset + count ≤ memory.size := by
  rw [translate] at h
  split at h
  · cases h
    omega
  split at h
  · cases h
    omega
  · cases h

theorem slice_eq (bytes : Array UInt8) (offset count : Nat) :
    slice bytes offset (offset + count) = (bytes.toList.drop offset).take count := by
  have stop : sliceEnd bytes.size (offset + count) = offset + count := by
    rw [sliceEnd, if_neg (by omega)]
    rfl
  rw [slice, stop, Array.toList_extract, List.extract_eq_take_drop, Nat.add_sub_cancel_left]

theorem littleEndian_slice (inside : offset + count ≤ memory.size) :
    littleEndian (slice memory.bytes offset (offset + count)) = memory.loaded offset count := by
  rw [slice_eq]
  induction count with
  | zero => rfl
  | succ count ih =>
    have position : offset + count < memory.bytes.size := inside
    have next : (memory.bytes.toList.drop offset)[count]? =
        some (memory.bytes.getD (offset + count) 0) := by
      simp [List.getElem?_drop, Array.getD, position]
    have length : ((memory.bytes.toList.drop offset).take count).length = count := by
      simp only [List.length_take, List.length_drop, Array.length_toList]
      omega
    calc littleEndian ((memory.bytes.toList.drop offset).take (count + 1))
      _ = littleEndian ((memory.bytes.toList.drop offset).take count ++
          [memory.bytes.getD (offset + count) 0]) := by
        rw [List.take_add_one, next, Option.toList_some]
      _ = littleEndian ((memory.bytes.toList.drop offset).take count) +
          256 ^ count * (memory.bytes.getD (offset + count) 0).toNat := by
        rw [littleEndian_append_singleton, length]
      _ = memory.loaded offset (count + 1) := by rw [ih (by omega), loaded]

theorem loaded_lt (memory : Memory) (offset count : Nat) :
    memory.loaded offset count < 256 ^ count := by
  induction count with
  | zero => simp [loaded]
  | succ count ih =>
    have byte := Nat.le_of_lt_succ (memory.bytes.getD (offset + count) 0).toNat_lt
    calc memory.loaded offset (count + 1)
      _ < 256 ^ count + 256 ^ count * (memory.bytes.getD (offset + count) 0).toNat :=
        Nat.add_lt_add_right ih _
      _ ≤ 256 ^ count + 256 ^ count * 255 :=
        Nat.add_le_add_left (Nat.mul_le_mul_left _ byte) _
      _ = 256 ^ (count + 1) := by
        rw [Nat.pow_succ]
        omega

theorem getElem?_putBytes (bytes : Array UInt8) (data : List UInt8) (index : Nat)
    (inside : offset + data.length ≤ bytes.size) :
    (putBytes bytes offset data)[index]? =
      if offset ≤ index ∧ index < offset + data.length then data[index - offset]?
      else bytes[index]? := by
  induction data generalizing bytes offset with
  | nil =>
    rw [if_neg (by simp only [List.length_nil]; omega)]
    rfl
  | cons byte rest ih =>
    simp only [List.length_cons] at inside
    rw [putBytes, ih _ (by simp only [Array.size_setIfInBounds]; omega)]
    rcases Nat.lt_trichotomy index offset with before | rfl | after
    · rw [if_neg (by omega), if_neg (by omega),
        Array.getElem?_setIfInBounds_ne (Nat.ne_of_gt before)]
    · rw [if_neg (by omega), if_pos (by simp only [List.length_cons]; omega), Nat.sub_self,
        Array.getElem?_setIfInBounds_self_of_lt (by omega)]
      rfl
    · have shift : index - offset = index - (offset + 1) + 1 := by omega
      rw [Array.getElem?_setIfInBounds_ne (Nat.ne_of_lt after), shift, List.getElem?_cons_succ]
      simp only [List.length_cons]
      congr 1
      simp only [eq_iff_iff]
      omega

theorem put_toLittleEndian (value : Nat) (inside : offset + count ≤ memory.size) :
    memory.put offset (toLittleEndian count value) = memory.stored offset count value := by
  have bytes : putBytes memory.bytes offset (toLittleEndian count value) =
      (memory.stored offset count value).bytes := by
    apply Array.ext_getElem?
    intro index
    rw [getElem?_putBytes _ _ _ (by rw [length_toLittleEndian]; exact inside)]
    simp only [length_toLittleEndian, getElem?_toLittleEndian, stored, Array.getElem?_ofFn]
    have size : memory.size = memory.bytes.size := rfl
    by_cases within : offset ≤ index ∧ index < offset + count
    · simp [within, show index < memory.bytes.size by omega, show index - offset < count by omega]
    · rw [if_neg within]
      by_cases position : index < memory.bytes.size
      · simp [position, within]
      · simp [position]
  rw [put, bytes]
  rfl

end Memory

end MiniA64
