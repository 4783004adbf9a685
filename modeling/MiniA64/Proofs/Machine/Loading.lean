import MiniA64.Proofs.Machine.Accesses
import MiniA64.Proofs.Machine.Stepping

/-!
# Programs in memory

A machine stands at an address of a program if it is about to execute the four bytes that the
program has there. Only these four have to be those of the program still; the rest of memory may
have changed since the program was loaded. A machine stands at the start of a program right after
it has been loaded.
-/

namespace MiniA64

/-- A new memory can be indexed, and is all zero. -/
theorem Memory.eq_of_new {available size base : Int} {memory : Memory}
    (h : new available size base = .ok memory) :
    size < indexLimit ∧ memory = ⟨base, Array.replicate size.toNat 0, 0⟩ := by
  rw [new] at h
  split at h
  · cases h
  split at h
  · cases h
  rename_i indexable
  split at h
  · cases h
  · exact ⟨Int.not_le.mp indexable, (Except.ok.inj h).symm⟩

theorem Memory.size_putBytes (bytes : Array UInt8) (offset : Nat) (data : List UInt8) :
    (putBytes bytes offset data).size = bytes.size := by
  induction data generalizing bytes offset with
  | nil => rfl
  | cons byte rest ih => rw [putBytes, ih, Array.size_setIfInBounds]

theorem Memory.eq_of_load {memory loaded : Memory} {code : List UInt8}
    (h : memory.load code = .ok loaded) :
    code.length ≤ memory.size ∧ loaded = { memory with
      bytes := putBytes (Array.replicate memory.size 0) 0 code
      programSize := code.length } := by
  rw [load] at h
  split at h
  · cases h
  · rename_i fits
    exact ⟨Nat.not_lt.mp fits, (Except.ok.inj h).symm⟩

namespace Machine

variable {κ φ τ : Type} {machine : Machine κ φ τ} {code : List UInt8} {address : Nat}

/-- The machine runs and its counter is at the code of a program at base zero. -/
structure StandsAt (machine : Machine κ φ τ) (code : List UInt8) (address : Nat) : Prop where
  running : machine.status = .running
  belowCeiling : machine.executed < machine.config.maxInstructions
  aligned : address % 4 = 0
  pc : machine.registers.pc = address
  base : machine.world.memory.base = 0
  programSize : machine.world.memory.programSize = code.length
  fits : code.length ≤ machine.world.memory.size
  indexable : code.length < Memory.indexLimit
  holds : ∀ index < 4, machine.world.memory.bytes[address + index]? = code[address + index]?

/-- The word that the program has where the machine stands is the one it is about to execute. -/
theorem StandsAt.aboutToExecute {before : List UInt8} {word : Word}
    (stands : machine.StandsAt code address) (length : before.length = address)
    (placed : before ++ word.toBytes <+: code) : machine.AboutToExecute word := by
  obtain ⟨after, rfl⟩ := placed
  have long : (before ++ word.toBytes ++ after).length = address + 4 + after.length := by
    simp [length, Nat.add_assoc]
  have fits := stands.fits
  have translated : machine.world.memory.translate machine.registers.pc 4 = some address := by
    rw [Memory.translate, stands.pc, stands.base, if_pos (by omega)]
    simp
  refine ⟨stands.running, stands.belowCeiling, ?_, ⟨address, translated, ?_⟩, ?_⟩
  · rw [stands.pc]
    exact_mod_cast stands.aligned
  · rw [stands.programSize]
    omega
  · rw [Memory.read, translated, Option.map_some, show (address + 4 : Int) =
      (address : Nat) + (4 : Nat) from rfl, Memory.slice_eq]
    congr 1
    apply List.ext_getElem?
    intro index
    by_cases within : index < 4
    · have byte := stands.holds index within
      rw [List.getElem?_take_of_lt within, List.getElem?_drop, Array.getElem?_toList, byte,
        List.append_assoc, List.getElem?_append_right (by omega),
        List.getElem?_append_left (by rw [Word.length_toBytes]; omega)]
      congr 1
      omega
    · rw [List.getElem?_eq_none (by simp only [List.length_take]; omega),
        List.getElem?_eq_none (by rw [Word.length_toBytes]; omega)]

theorem ofMemory_of_load {loaded : Machine κ φ τ} (h : machine.load code = .ok loaded) :
    ∃ memory log, machine.world.memory.load code = .ok memory ∧
      loaded = ofMemory machine.config memory machine.world.host log := by
  rw [load] at h
  cases hmemory : machine.world.memory.load code with
  | error error =>
    rw [hmemory] at h
    cases h
  | ok memory =>
    rw [hmemory] at h
    exact ⟨memory, _, rfl, (Except.ok.inj h).symm⟩

theorem ofMemory_of_new {available : Int} {config : Config} {host : Host κ φ τ}
    (h : new available config host = .ok machine) :
    ∃ memory, Memory.new available config.memorySize config.addressBase = .ok memory ∧
      machine = ofMemory config memory host #[] := by
  rw [new] at h
  cases hmemory : Memory.new available config.memorySize config.addressBase with
  | error error =>
    rw [hmemory] at h
    cases h
  | ok memory =>
    rw [hmemory] at h
    exact ⟨memory, rfl, (Except.ok.inj h).symm⟩

/-- A new machine at base zero stands at the start of a program that has been loaded into it. -/
theorem standsAt_load {available : Int} {config : Config} {host : Host κ φ τ}
    {loaded : Machine κ φ τ} (created : new available config host = .ok machine)
    (base : config.addressBase = 0) (ceiling : 0 < config.maxInstructions) (long : 4 ≤ code.length)
    (h : machine.load code = .ok loaded) : loaded.StandsAt code 0 := by
  obtain ⟨empty, hnew, rfl⟩ := ofMemory_of_new created
  obtain ⟨memory, log, hload, rfl⟩ := ofMemory_of_load h
  obtain ⟨indexable, blank⟩ := Memory.eq_of_new hnew
  obtain ⟨fits, filled⟩ := Memory.eq_of_load hload
  change code.length ≤ empty.size at fits
  change memory = { empty with
    bytes := Memory.putBytes (Array.replicate empty.size 0) 0 code
    programSize := code.length } at filled
  have emptySize : empty.size = config.memorySize.toNat := by
    rw [blank, Memory.size, Array.size_replicate]
  have size : memory.size = empty.size := by
    rw [filled, Memory.size, Memory.size_putBytes, Array.size_replicate]
  have positive : (0 : Int) < Memory.indexLimit := by decide
  refine ⟨rfl, ceiling, rfl, rfl, ?_, ?_, ?_, ?_, fun index within ↦ ?_⟩
  · show memory.base = 0
    rw [filled, blank, base]
  · show memory.programSize = code.length
    rw [filled]
  · show code.length ≤ memory.size
    rw [size]
    exact fits
  · show (code.length : Int) < Memory.indexLimit
    omega
  · show memory.bytes[0 + index]? = code[0 + index]?
    rw [filled, Memory.getElem?_putBytes _ _ _ (by rw [Array.size_replicate]; omega),
      if_pos (by omega), Nat.sub_zero]

end Machine

end MiniA64
