import MiniA64.Proofs.Machine.Attempts
import MiniA64.Proofs.Machine.ServiceCalls

/-!
# Block transfers

The services that copy and fill memory are given a length that need not fit. They find out from the
translation of single bytes how far the memory goes, and then access all of it at once. The whole
access is translated as its first byte was: it is longer and still fits, so it cannot be refused or
land in the other window. What is copied is what was there before, also where the ranges overlap.
-/

namespace MiniA64

namespace Memory

variable {memory : Memory} {place : Nat}

/-! ## Copies and fills -/

/-- The memory has a copy of what the other one had at the source. It is as long as asked for, where
target and source both have room, and there is none if one of them has no place in memory. -/
structure Copied (before after : Memory) (target source : Int) (length : Nat) : Prop where
  moved : ∀ place origin, before.translate target 1 = some place →
    before.translate source 1 = some origin →
    before.Overwritten after place
      (min length (min (before.size - place) (before.size - origin)))
      fun k ↦ before.bytes[origin + k]?
  untouched : before.translate target 1 = none ∨ before.translate source 1 = none ∨ length = 0 →
    after = before

/-- The memory is filled with a byte, as far as asked for or as it goes. -/
structure Filled (before after : Memory) (target : Int) (length : Nat) (byte : UInt8) : Prop where
  set : ∀ place, before.translate target 1 = some place →
    before.Overwritten after place (min length (before.size - place)) fun _ ↦ some byte
  untouched : before.translate target 1 = none ∨ length = 0 → after = before

theorem overwritten_none (inside : place ≤ memory.size) (value : Nat → Option UInt8) :
    memory.Overwritten memory place 0 value :=
  ⟨.refl memory, inside, fun _ within ↦ absurd within (Nat.not_lt_zero _), fun _ _ ↦ rfl⟩

end Memory

namespace Service

variable {κ φ τ : Type}

/-- Data that begins at a translated byte and fits is written there. -/
theorem write_of_first {world : World κ φ τ} {address : Int} {place : Nat} (data : List UInt8)
    (first : world.memory.translate address 1 = some place) (positive : 0 < data.length)
    (fits : place + data.length ≤ world.memory.size) :
    ∃ after, world.write address data = { world with memory := after } ∧
      world.memory.Overwritten after place data.length (data[·]?) := by
  have whole := Memory.translate_of_first first positive fits
  exact ⟨world.memory.put place data, World.write_of_translate whole, Memory.overwritten_put whole⟩

theorem copied_copyBytes (argument : Arguments) {length : Nat} (given : argument 2 = length)
    (world : World κ φ τ) :
    ∃ after, copyBytes argument world = { world with memory := after } ∧
      world.memory.Copied after (argument 0) (argument 1) length := by
  have counted {place origin : Nat} (target : world.memory.translate (argument 0) 1 = some place)
      (source : world.memory.translate (argument 1) 1 = some origin) :
      min (world.memory.span (argument 0) length) (world.memory.span (argument 1) length) =
        min length (min (world.memory.size - place) (world.memory.size - origin)) := by
    rw [Memory.span_of_translate target, Memory.span_of_translate source]
    omega
  unfold copyBytes
  dsimp only
  rw [given]
  split
  · rename_i nothing
    refine ⟨world.memory, rfl, ?_, fun _ ↦ rfl⟩
    intro place origin target source
    have inside : place + 1 ≤ world.memory.size := Memory.end_le_of_translate target
    rw [← counted target source, nothing]
    exact Memory.overwritten_none (by omega) _
  · rename_i something
    obtain ⟨place, target, positive, -⟩ := Memory.exists_first (by omega :
      world.memory.span (argument 0) length ≠ 0)
    obtain ⟨origin, source, -⟩ := Memory.exists_first (by omega :
      world.memory.span (argument 1) length ≠ 0)
    rw [counted target source] at something ⊢
    generalize clipped : min length (min _ _) = count at something ⊢
    obtain ⟨data, read, size, values⟩ := Memory.read_of_first source (by omega : 0 < count)
      (by omega)
    subst size
    obtain ⟨after, written, overwritten⟩ := write_of_first data target (by omega) (by omega)
    refine ⟨after, ?_, ?_, ?_⟩
    · simp only [World.read, read, written]
    · intro _ _ found other
      cases target.symm.trans found
      cases source.symm.trans other
      rw [clipped]
      exact overwritten.congr values
    · rintro (missing | missing | zero)
      · cases target.symm.trans missing
      · cases source.symm.trans missing
      · omega

theorem filled_fillBytes (argument : Arguments) {length : Nat} (given : argument 2 = length)
    (world : World κ φ τ) :
    ∃ after, fillBytes argument world = { world with memory := after } ∧
      world.memory.Filled after (argument 0) length (UInt8.ofNat (argument 1 % 256).toNat) := by
  unfold fillBytes
  dsimp only
  rw [given]
  split
  · rename_i nothing
    refine ⟨world.memory, rfl, ?_, fun _ ↦ rfl⟩
    intro place target
    have inside : place + 1 ≤ world.memory.size := Memory.end_le_of_translate target
    rw [← Memory.span_of_translate target, nothing]
    exact Memory.overwritten_none (by omega) _
  · rename_i something
    obtain ⟨place, target, positive, -⟩ := Memory.exists_first something
    rw [Memory.span_of_translate target] at something ⊢
    generalize clipped : min length _ = count at something ⊢
    generalize UInt8.ofNat (argument 1 % 256).toNat = byte
    obtain ⟨after, written, overwritten⟩ := write_of_first (List.replicate count byte) target
      (by rw [List.length_replicate]; omega) (by rw [List.length_replicate]; omega)
    rw [List.length_replicate] at overwritten
    refine ⟨after, written, ?_, ?_⟩
    · intro _ found
      cases target.symm.trans found
      rw [clipped]
      exact overwritten.congr fun k within ↦ List.getElem?_replicate_of_lt within
    · rintro (missing | zero)
      · cases target.symm.trans missing
      · omega

end Service

/-! ## The calls -/

namespace Machine

variable {κ φ τ : Type}

/-- The machine after a call that has changed memory and answers nothing. -/
def afterCall (machine : Machine κ φ τ) (service : Service) (memory : Memory) : Machine κ φ τ :=
  { machine with
    world := { machine.world.noteCall service with memory }
    registers := { machine.registers with pc := Registers.wrap (machine.registers.pc + 4) } }

variable [Console κ] [FileStore φ] [Clock τ]

theorem execute_afterCall {machine : Machine κ φ τ} {service : Service} {after : Memory}
    (carriedOut : Service.run machine.config service machine.arguments
        (machine.world.noteCall service) =
      (.done none, { machine.world.noteCall service with memory := after })) :
    machine.execute (.exception .svc service.id) = machine.afterCall service after := by
  rw [execute_call, carriedOut]
  rfl

/-- Copying and filling succeed with every partial operation, however few rounds there are. -/
theorem attempt_transfer (machine : Machine κ φ τ) (rounds : Nat) {service : Service}
    (transfers : service = .copyMemory ∨ service = .fillMemory) :
    Attempt.execute rounds (.exception .svc service.id) machine =
      .ok (machine.execute (.exception .svc service.id)) := by
  apply Attempt.serviceCall_of_dispatch
  unfold Attempt.dispatch Service.dispatch
  rw [service.ofNumber?_id]
  obtain rfl | rfl := transfers
  · exact Attempt.bind_eq (Attempt.copyBytes_eq _ _) _
  · exact Attempt.bind_eq (Attempt.fillBytes_eq _ _) _

/--
Copying and filling are clipped to memory and nothing else. A call of the one copies what was at the
source, also where the ranges overlap, and a call of the other sets the bytes to the lowest byte of
its second argument. Both leave memory as it is if an address is in no place or the length is zero.
Neither changes a register but the counter, and neither comes upon an operation without a result.
-/
theorem execute_transfers (machine : Machine κ φ τ) (rounds : Nat) :
    (∃ after, machine.execute (.exception .svc Service.copyMemory.id) =
        machine.afterCall .copyMemory after ∧
      Attempt.execute rounds (.exception .svc Service.copyMemory.id) machine =
        .ok (machine.afterCall .copyMemory after) ∧
      machine.world.memory.Copied after (machine.registers.read 0).toNat
        (machine.registers.read 1).toNat (machine.registers.read 2).toNat) ∧
    ∃ after, machine.execute (.exception .svc Service.fillMemory.id) =
        machine.afterCall .fillMemory after ∧
      Attempt.execute rounds (.exception .svc Service.fillMemory.id) machine =
        .ok (machine.afterCall .fillMemory after) ∧
      machine.world.memory.Filled after (machine.registers.read 0).toNat
        (machine.registers.read 2).toNat
        (UInt8.ofNat ((machine.registers.read 1).toNat % 256)) := by
  constructor
  · obtain ⟨after, copied, changes⟩ := Service.copied_copyBytes machine.arguments rfl
      (machine.world.noteCall .copyMemory)
    have executed : machine.execute (.exception .svc Service.copyMemory.id) = _ :=
      execute_afterCall (congrArg (Prod.mk _) copied)
    refine ⟨after, executed, ?_, changes⟩
    rw [attempt_transfer machine rounds (.inl rfl), executed]
  · obtain ⟨after, filled, changes⟩ := Service.filled_fillBytes machine.arguments rfl
      (machine.world.noteCall .fillMemory)
    have executed : machine.execute (.exception .svc Service.fillMemory.id) = _ :=
      execute_afterCall (congrArg (Prod.mk _) filled)
    refine ⟨after, executed, ?_, changes⟩
    rw [attempt_transfer machine rounds (.inr rfl), executed]

end Machine

end MiniA64
