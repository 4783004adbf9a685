import MiniA64.Proofs.Machine.Atomicity
import MiniA64.Proofs.Machine.Preservation
import MiniA64.Proofs.Machine.Translation

/-!
# Service calls that write to memory

A call of a service is noted, carried out with the arguments that the registers hold, and answered.
What it writes is stated byte by byte: some bytes from a place on are given, and all others are as
they were.
-/

namespace MiniA64

/-! ## Calls -/

section Calls

variable {κ φ τ : Type}

/-- The world with the record of a call. -/
def World.noteCall (world : World κ φ τ) (service : Service) : World κ φ τ :=
  world.note .debug "armlet.emulator.extended"
    ("extended opcode 0x" ++ Text.hexLower 0 service.id.toNat ++ " (" ++ service.name ++ ")")

/-- What the registers hold for a service. -/
def Machine.arguments (machine : Machine κ φ τ) : Service.Arguments := fun index ↦
  (machine.registers.read (BitVec.ofNat 5 index)).toNat

theorem Service.ofNumber?_id (service : Service) :
    Service.ofNumber? service.id.toNat = some service := by
  cases service <;> rfl

variable [Console κ] [FileStore φ] [Clock τ]

/-- A supervisor call with the number of a service carries it out and settles its answer. -/
theorem Machine.execute_call (machine : Machine κ φ τ) (service : Service) :
    machine.execute (.exception .svc service.id) =
      let answer := Service.run machine.config service machine.arguments
        (machine.world.noteCall service)
      settle { machine with world := answer.2 } answer.1 := by
  have known := service.ofNumber?_id
  calc machine.execute (.exception .svc service.id)
    _ = machine.serviceCall service.id := rfl
    _ = _ := by
      rw [serviceCall_eq, Service.dispatch_of_known known]
      rfl

/-- The machine after a call of a service. -/
def Machine.call (machine : Machine κ φ τ) (service : Service) : Machine κ φ τ :=
  machine.execute (.exception .svc service.id)

/-- A service that answers with a number leaves it in the first register. -/
theorem Machine.call_answered (service : Service) {machine : Machine κ φ τ} {answer : Int}
    {world : World κ φ τ}
    (answered : Service.run machine.config service machine.arguments
      (machine.world.noteCall service) = (.done (some answer), world)) :
    (machine.call service).registers.read 0 = BitVec.ofInt 64 answer ∧
      (machine.call service).world = world := by
  rw [call, execute_call, answered]
  refine ⟨?_, rfl⟩
  calc ((settle { machine with world } (.done (some answer))).registers.read 0)
    _ = (machine.registers.writeAt .w64 0 (BitVec.ofInt 64 answer)).read 0 := rfl
    _ = BitVec.ofInt 64 answer := by simp [Registers.writeAt, Registers.write, Registers.read]

end Calls

/-! ## Overwritten memory -/

theorem World.write_of_translate {κ φ τ : Type} {world : World κ φ τ} {address : Int} {place : Nat}
    {data : List UInt8} (accepted : world.memory.translate address data.length = some place) :
    world.write address data = { world with memory := world.memory.put place data } := by
  rw [World.write, accepted]

namespace Memory

variable {memory : Memory} {address : Int} {place : Nat}

/-- Some bytes from a place on are those that a function gives, and all others are as before. -/
structure Overwritten (before after : Memory) (place count : Nat) (value : Nat → Option UInt8) :
    Prop extends SameWindow before after where
  fits : place + count ≤ before.size
  inside : ∀ k < count, after.bytes[place + k]? = value k
  outside : ∀ index, ¬(place ≤ index ∧ index < place + count) →
    after.bytes[index]? = before.bytes[index]?

theorem overwritten_put {data : List UInt8}
    (accepted : memory.translate address data.length = some place) :
    memory.Overwritten (memory.put place data) place data.length (data[·]?) := by
  have fits : place + data.length ≤ memory.bytes.size := end_le_of_translate accepted
  refine { sameWindow_put accepted with fits, inside := ?_, outside := ?_ }
  · intro k within
    have written := getElem?_putBytes memory.bytes data (place + k) fits
    rw [if_pos ⟨Nat.le_add_right _ _, by omega⟩, Nat.add_sub_cancel_left] at written
    exact written
  · intro index apart
    have written := getElem?_putBytes memory.bytes data index fits
    rw [if_neg apart] at written
    exact written

theorem Overwritten.congr {before after : Memory} {count : Nat} {value given : Nat → Option UInt8}
    (overwritten : Overwritten before after place count value)
    (values : ∀ k < count, value k = given k) : Overwritten before after place count given :=
  { overwritten with
    inside := fun k within ↦ (overwritten.inside k within).trans (values k within) }

end Memory

end MiniA64
