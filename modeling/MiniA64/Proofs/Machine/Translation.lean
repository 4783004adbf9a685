import MiniA64.Proofs.Machine.Accesses
import MiniA64.Proofs.Machine.Loading

/-!
# Accesses byte by byte

An access of several bytes is translated as a whole, and its first byte decides between the window
at the base and the plain offsets. An access in the window is there with each of its bytes. An
access of plain offsets has all of them only if none of its bytes lies in the window: a byte that
does is found there when it is accessed by itself. Such an access exists if the window covers some
of the plain offsets and is not all of them, and then alone.
-/

namespace MiniA64

namespace Memory

variable {memory : Memory} {address : Int} {length offset : Nat}

/-- The access lies in the window at the base. -/
def InWindow (memory : Memory) (address length : Int) : Prop :=
  memory.base ≤ address ∧ address - memory.base + length ≤ memory.size

/-- Some bytes of the access lie in the window at the base, and it is not there as a whole. -/
def Straddles (memory : Memory) (address : Int) (length : Nat) : Prop :=
  ¬memory.InWindow address length ∧ ∃ k < length, memory.InWindow (address + k) 1

instance (memory : Memory) (address length : Int) : Decidable (memory.InWindow address length) :=
  inferInstanceAs (Decidable (_ ∧ _))

instance (memory : Memory) (address : Int) (length : Nat) :
    Decidable (memory.Straddles address length) :=
  inferInstanceAs (Decidable (_ ∧ _))

/-- Reads bytes by an access for each of them. -/
def readEach (memory : Memory) (address : Int) : Nat → Option (List UInt8)
  | 0 => some []
  | count + 1 => do
    let first ← memory.read address 1
    let rest ← memory.readEach (address + 1) count
    return first ++ rest

/-- Writes bytes by an access for each of them. -/
def writeEach (memory : Memory) (address : Int) : List UInt8 → Option Memory
  | [] => some memory
  | byte :: rest => do
    let memory ← memory.write address [byte]
    memory.writeEach (address + 1) rest

/-! ## Translation -/

theorem translate_of_inWindow {length : Int} (inside : memory.InWindow address length) :
    memory.translate address length = some (address - memory.base).toNat :=
  if_pos inside

/-- An access outside the window is one of plain offsets, if it is accepted at all. -/
theorem translate_of_not_inWindow {length : Int} (outside : ¬memory.InWindow address length) :
    memory.translate address length =
      if 0 ≤ address ∧ address + length ≤ memory.size then some address.toNat else none :=
  if_neg outside

/-- With an access in the window each of its bytes is there. -/
theorem InWindow.byte (inside : memory.InWindow address length) {k : Nat} (within : k < length) :
    memory.InWindow (address + k) 1 := by
  obtain ⟨first, last⟩ := inside
  constructor <;> omega

/-- The bytes of an accepted access lie side by side just if the access does not straddle. -/
theorem translate_byte_iff (accepted : memory.translate address length = some offset) :
    (∀ k < length, memory.translate (address + k) 1 = some (offset + k)) ↔
      ¬memory.Straddles address length := by
  by_cases inside : memory.InWindow address length
  · refine iff_of_true (fun k within ↦ ?_) fun straddles ↦ straddles.1 inside
    have first := inside.1
    rw [translate_of_inWindow inside, Option.some.injEq] at accepted
    rw [translate_of_inWindow (inside.byte within), Option.some.injEq]
    omega
  · rw [translate_of_not_inWindow inside] at accepted
    split at accepted
    · rename_i plain
      cases accepted
      constructor
      · rintro bytes ⟨-, k, within, covered⟩
        -- A byte in the window has its plain offset only if the window begins at zero.
        have found := bytes k within
        rw [translate_of_inWindow covered, Option.some.injEq] at found
        have := covered.1
        exact inside ⟨by omega, by omega⟩
      · intro apart k within
        have uncovered : ¬memory.InWindow (address + k) 1 := fun covered ↦
          apart ⟨inside, k, within, covered⟩
        rw [translate_of_not_inWindow uncovered, if_pos ⟨by omega, by omega⟩,
          Option.some.injEq]
        omega
    · cases accepted

/-- No accepted access straddles just if the window is the plain offsets or covers none of them. -/
theorem forall_not_straddles_iff :
    (∀ (address : Int) (length offset : Nat), memory.translate address length = some offset →
      ¬memory.Straddles address length) ↔
      memory.base = 0 ∨ memory.size ≤ memory.base.natAbs := by
  constructor
  · intro apart
    refine Classical.byContradiction fun overlaps ↦ ?_
    obtain ⟨moved, near⟩ := not_or.mp overlaps
    -- The two bytes stand on either side of the edge of the window.
    let edge : Int := if 0 < memory.base then memory.base else memory.base + memory.size
    have outside : ¬memory.InWindow (edge - 1) (2 : Nat) := by
      rintro ⟨first, last⟩
      simp only [edge] at first last
      split at first <;> omega
    have accepted : memory.translate (edge - 1) (2 : Nat) = some (edge - 1).toNat := by
      rw [translate_of_not_inWindow outside, if_pos]
      simp only [edge]
      split <;> omega
    refine apart _ _ _ accepted ⟨outside, ?_⟩
    by_cases positive : 0 < memory.base
    · refine ⟨1, by omega, ?_, ?_⟩ <;> simp only [edge, if_pos positive] <;> omega
    · refine ⟨0, by omega, ?_, ?_⟩ <;> simp only [edge, if_neg positive] <;> omega
  · rintro far address length offset accepted ⟨outside, k, within, first, last⟩
    rw [translate_of_not_inWindow outside] at accepted
    split at accepted
    · rename_i plain
      obtain zero | far := far
      · exact outside ⟨by omega, by omega⟩
      · omega
    · cases accepted

/-! ## Reading and writing -/

theorem read_of_translate (accepted : memory.translate address length = some offset) :
    memory.read address length = some ((memory.bytes.toList.drop offset).take length) := by
  rw [read, accepted, Option.map_some, slice_eq]

/-- Side by side from the second byte on. -/
theorem translate_succ {count : Nat}
    (bytes : ∀ k < count + 1, memory.translate (address + k) 1 = some (offset + k)) :
    memory.translate address 1 = some offset ∧
      ∀ k < count, memory.translate (address + 1 + k) 1 = some (offset + 1 + k) := by
  refine ⟨by simpa using bytes 0 (Nat.succ_pos _), fun k within ↦ ?_⟩
  have there := bytes (k + 1) (Nat.succ_lt_succ within)
  rw [show address + 1 + k = address + (k + 1 : Nat) by omega, there, Option.some.injEq]
  omega

/-- Bytes that lie side by side are read one by one as they are read together. -/
theorem readEach_eq (bytes : ∀ k < length, memory.translate (address + k) 1 = some (offset + k)) :
    memory.readEach address length = some ((memory.bytes.toList.drop offset).take length) := by
  induction length generalizing address offset with
  | zero => rfl
  | succ length ih =>
    obtain ⟨here, further⟩ := translate_succ bytes
    have first : memory.read address (1 : Nat) = _ := read_of_translate here
    rw [Int.natCast_one] at first
    rw [readEach]
    rw [first, ih further, Nat.add_comm length 1, List.take_add, List.drop_drop]
    rfl

theorem size_put (memory : Memory) (place : Nat) (data : List UInt8) :
    (memory.put place data).size = memory.size :=
  size_putBytes memory.bytes place data

/-- Writing moves neither the window nor the end of the array. -/
theorem translate_put (memory : Memory) (place : Nat) (data : List UInt8)
    (address length : Int) :
    (memory.put place data).translate address length = memory.translate address length := by
  unfold translate
  rw [size_put]
  rfl

/-- Bytes that lie side by side are written one by one as they are written together. -/
theorem writeEach_eq {data : List UInt8}
    (bytes : ∀ k < data.length, memory.translate (address + k) 1 = some (offset + k)) :
    memory.writeEach address data = some (memory.put offset data) := by
  induction data generalizing memory address offset with
  | nil => rfl
  | cons byte rest ih =>
    obtain ⟨here, further⟩ := translate_succ bytes
    have first : memory.write address [byte] = some (memory.put offset [byte]) := by
      rw [write, List.length_singleton, Int.natCast_one, here, Option.map_some]
    have others : (memory.put offset [byte]).writeEach (address + 1) rest = _ :=
      ih fun k within ↦ (translate_put ..).trans (further k within)
    rw [writeEach, first]
    exact others

/-! ## Accesses that begin with a translated byte -/

/-- A longer access that fits is translated as its first byte. -/
theorem translate_of_first (first : memory.translate address 1 = some offset)
    (positive : 0 < length) (fits : offset + length ≤ memory.size) :
    memory.translate address length = some offset := by
  unfold translate at first ⊢
  split at first
  · cases first
    exact if_pos (by omega)
  split at first
  · cases first
    exact (if_neg (by omega)).trans (if_pos (by omega))
  · cases first

theorem span_of_translate (first : memory.translate address 1 = some offset) (length : Nat) :
    memory.span address length = min length (memory.size - offset) := by
  have below : offset + 1 ≤ memory.size := end_le_of_translate first
  simp only [span, first]
  split <;> omega

/-- An access that spans bytes begins with a translated one, and all that it spans is in memory. -/
theorem exists_first {length : Int} (spans : memory.span address length ≠ 0) :
    ∃ offset, memory.translate address 1 = some offset ∧ 0 < length ∧
      offset + memory.span address length ≤ memory.size := by
  unfold span at spans ⊢
  split
  · rename_i none
    exact absurd (if_pos none) spans
  · rename_i positive
    rw [if_neg positive] at spans
    cases first : memory.translate address 1 with
    | none =>
      rw [first] at spans
      exact absurd rfl spans
    | some offset =>
      have below : offset + 1 ≤ memory.size := end_le_of_translate first
      exact ⟨offset, rfl, by omega, by dsimp only; omega⟩

/-- What begins at a translated byte and fits is read from there. -/
theorem read_of_first (first : memory.translate address 1 = some offset) (positive : 0 < length)
    (fits : offset + length ≤ memory.size) :
    ∃ data, memory.read address length = some data ∧ data.length = length ∧
      ∀ k < length, data[k]? = memory.bytes[offset + k]? := by
  have inside : offset + length ≤ memory.bytes.toList.length := fits
  refine ⟨_, read_of_translate (translate_of_first first positive fits), ?_, ?_⟩
  · simp only [List.length_take, List.length_drop]
    omega
  · intro k within
    rw [List.getElem?_take_of_lt within, List.getElem?_drop, Array.getElem?_toList]

/-! ## Single accesses -/

/--
The bytes of an accepted access lie side by side where single accesses find them, unless the access
straddles. If it does not, then reading or writing it touches these bytes and no others. No access
straddles in a memory whose window is at zero, or as far from there as the memory is long, and in
every other memory some access does.
-/
theorem translate_bytewise (memory : Memory) :
    (∀ (address : Int) (length offset : Nat), memory.translate address length = some offset →
      ((∀ k < length, memory.translate (address + k) 1 = some (offset + k)) ↔
        ¬memory.Straddles address length) ∧
      (¬memory.Straddles address length →
        memory.read address length = memory.readEach address length ∧
        ∀ data : List UInt8, data.length = length →
          memory.write address data = memory.writeEach address data)) ∧
    ((∀ (address : Int) (length offset : Nat), memory.translate address length = some offset →
      ¬memory.Straddles address length) ↔
      memory.base = 0 ∨ memory.size ≤ memory.base.natAbs) := by
  refine ⟨fun address length offset accepted ↦ ?_, forall_not_straddles_iff⟩
  have byte := translate_byte_iff accepted
  refine ⟨byte, fun apart ↦ ?_⟩
  have bytes := byte.mpr apart
  refine ⟨?_, fun data all ↦ ?_⟩
  · rw [read_of_translate accepted, readEach_eq bytes]
  · subst all
    rw [write, accepted, Option.map_some, writeEach_eq bytes]

/-- Four plain offsets that end where the window begins. -/
theorem translate_bytewise_below_window :
    let memory : Memory := ⟨4, #[10, 11, 12, 13, 14, 15, 16, 17], 0⟩
    memory.translate 0 (4 : Nat) = some 0 ∧ ¬memory.Straddles 0 4 ∧
      (∀ k < (4 : Nat), memory.translate (0 + k) 1 = some (0 + k)) ∧
      memory.read 0 (4 : Nat) = memory.readEach 0 4 ∧
      ∀ data : List UInt8, data.length = 4 → memory.write 0 data = memory.writeEach 0 data := by
  intro memory
  have accepted : memory.translate 0 (4 : Nat) = some 0 := by decide
  have apart : ¬memory.Straddles 0 4 := by decide
  obtain ⟨bytes, accesses⟩ := (translate_bytewise memory).1 0 4 0 accepted
  exact ⟨accepted, apart, bytes.mpr apart, accesses apart⟩

/-- Four plain offsets with the edge of the window among them: the last two bytes are not those that
are found at their addresses. -/
theorem translate_straddling :
    let memory : Memory := ⟨4, #[10, 11, 12, 13, 14, 15, 16, 17], 0⟩
    memory.translate 2 (4 : Nat) = some 2 ∧
      ¬(∀ k < (4 : Nat), memory.translate (2 + k) 1 = some (2 + k)) ∧
      memory.read 2 (4 : Nat) = some [12, 13, 14, 15] ∧
      memory.readEach 2 4 = some [12, 13, 10, 11] := by
  decide +kernel

end Memory

end MiniA64
