import MiniA64.Host.Failing
import MiniA64.Host.Memory
import MiniA64.Proofs.Host.Stores
import MiniA64.Proofs.Machine.ServiceCalls

/-!
# Writing and reading files

A program writes a range of memory to a file, and reads as much of a file as fits into a range. Both
ranges are translated as a whole and a call whose range is not in memory does nothing, so what a
file gets is what the range held, and what a range gets is the front of the file.

A range without bytes is nowhere outside of memory. A call that writes one makes an empty file,
wherever the range is.
-/

namespace MiniA64

/-! ## Ranges -/

namespace Memory

variable {memory before after : Memory} {place length : Nat}

/-- All bytes of a range are in memory, as those of an empty range are wherever it is. -/
def Covers (memory : Memory) (place length : Nat) : Prop :=
  ∀ k < length, place + k < memory.size

instance (memory : Memory) (place length : Nat) : Decidable (memory.Covers place length) :=
  inferInstanceAs (Decidable (∀ k < length, _))

theorem covers_iff : memory.Covers place length ↔ length = 0 ∨ place + length ≤ memory.size := by
  constructor
  · intro covers
    by_cases empty : length = 0
    · exact .inl empty
    · have last := covers (length - 1) (by omega)
      exact .inr (by omega)
  · rintro (empty | fits) k within <;> omega

/-- The bytes that memory has in a range. -/
def range (memory : Memory) (place length : Nat) : List UInt8 :=
  (memory.bytes.toList.drop place).take length

theorem length_range (covers : memory.Covers place length) :
    (memory.range place length).length = length := by
  have size : memory.bytes.toList.length = memory.size := Array.length_toList
  rw [range, List.length_take, List.length_drop, size]
  have fits := covers_iff.mp covers
  omega

theorem getElem?_range {k : Nat} (within : k < length) :
    (memory.range place length)[k]? = memory.bytes[place + k]? := by
  rw [range, List.getElem?_take_of_lt within, List.getElem?_drop, Array.getElem?_toList]

/-- The bytes of a range that is in memory. -/
def range? (memory : Memory) (place length : Nat) : Option (List UInt8) :=
  if memory.Covers place length then some (memory.range place length) else none

/-- With its window at zero a memory has each address at one place only. -/
theorem translate_of_base_zero (base : memory.base = 0) :
    memory.translate place length = if place + length ≤ memory.size then some place else none := by
  have inside : 0 ≤ (place : Int) ∧ (place : Int) + length ≤ memory.size ↔
      place + length ≤ memory.size := by omega
  rw [translate, base, Int.sub_zero, Int.toNat_natCast, if_congr inside rfl rfl,
    if_congr inside rfl rfl]
  split <;> rfl

/-- The first bytes of a range are given, and all other bytes of memory are as before. -/
structure Delivered (before after : Memory) (place count : Nat) (value : Nat → Option UInt8) :
    Prop extends SameWindow before after where
  bytes : ∀ index, after.bytes[index]? =
    if place ≤ index ∧ index < place + count then value (index - place) else before.bytes[index]?

theorem Delivered.nothing (memory : Memory) (place : Nat) (value : Nat → Option UInt8) :
    memory.Delivered memory place 0 value where
  toSameWindow := .refl memory
  bytes index := (if_neg (by omega)).symm

theorem Delivered.eq_of_zero {value : Nat → Option UInt8}
    (delivered : before.Delivered after place 0 value) : after = before := by
  obtain ⟨⟨⟨-, programSize⟩, base⟩, values⟩ := delivered
  have bytes : after.bytes = before.bytes := by
    refine Array.ext_getElem? fun index ↦ ?_
    rw [values index, if_neg (by omega)]
  cases before
  cases after
  cases bytes
  cases programSize
  cases base
  rfl

theorem Overwritten.delivered {count : Nat} {value : Nat → Option UInt8}
    (overwritten : Overwritten before after place count value) :
    before.Delivered after place count value where
  toSameWindow := overwritten.toSameWindow
  bytes index := by
    split
    · rename_i within
      obtain ⟨k, rfl⟩ := Nat.exists_eq_add_of_le within.1
      rw [overwritten.inside k (by omega), Nat.add_sub_cancel_left]
    · rename_i apart
      exact overwritten.outside index apart

theorem Delivered.congr {count : Nat} {value given : Nat → Option UInt8}
    (delivered : before.Delivered after place count value)
    (values : ∀ k < count, value k = given k) : before.Delivered after place count given where
  toSameWindow := delivered.toSameWindow
  bytes index := by
    rw [delivered.bytes index]
    split
    · exact values _ (by omega)
    · rfl

end Memory

/-! ## Files -/

theorem MemoryStore.read_write_self (store : MemoryStore) (name : String) (data : List UInt8) :
    (store.write name data).read name = some data :=
  (store.read_write name name data).trans (if_pos rfl)

namespace World

variable {κ φ τ : Type} (world : World κ φ τ) (operation : φ → Reply φ Int)

theorem files_onFiles :
    (world.onFiles operation).2.host.files = (operation world.host.files).2 := by
  unfold onFiles
  dsimp only
  split <;> rfl

/-- An operation that fails counts as one that answers zero. -/
theorem answer_onFiles :
    (world.onFiles operation).1 = (operation world.host.files).1.toOption.getD 0 := by
  unfold onFiles
  dsimp only
  split <;> rename_i answer <;> rw [answer] <;> rfl

end World

/-! ## The services -/

namespace Service

variable {κ φ τ : Type} [FileStore φ] {config : Config} {argument : Arguments}
  {world : World κ φ τ} {place length : Nat}

/-- A write asks the store for what its range holds, or for nothing if it is not in memory. -/
theorem runFileWrite_eq (config : Config) (world : World κ φ τ) (base : world.memory.base = 0)
    (address : argument 1 = place) (count : argument 2 = length) :
    ∃ noted : World κ φ τ, noted.host = world.host ∧
      runFileWrite config argument world =
        returning (noted.onFiles (fileWriteFrom (readName config world (argument 0))
          (world.memory.range? place length) length)) := by
  unfold runFileWrite Memory.range?
  dsimp only
  rw [address, count]
  by_cases empty : length = 0
  · subst empty
    have covers : world.memory.Covers place 0 := Memory.covers_iff.mpr (.inl rfl)
    exact ⟨world, rfl, by rw [if_pos Int.natCast_zero, if_pos covers, Memory.range, List.take_zero]⟩
  have someBytes : ¬(length : Int) = 0 := by omega
  have translated : world.memory.translate place length = _ := Memory.translate_of_base_zero base
  rw [if_neg someBytes]
  by_cases covers : world.memory.Covers place length
  · have fits := (Memory.covers_iff.mp covers).resolve_left empty
    rw [if_pos fits] at translated
    refine ⟨world, rfl, ?_⟩
    rw [World.read, Memory.read_of_translate translated, if_pos covers]
    rfl
  · have outside : ¬place + length ≤ world.memory.size := fun fits ↦
      covers (Memory.covers_iff.mpr (.inr fits))
    rw [if_neg outside] at translated
    refine ⟨world.noteDropped "read" length place, rfl, ?_⟩
    rw [World.read, Memory.read, translated, if_neg covers]
    rfl

/-- A read of nothing: the name is empty, the range is refused, or the store has nothing to give. -/
def ReadsNothing (config : Config) (argument : Arguments) (world : World κ φ τ) : Prop :=
  readName config world (argument 0) = "" ∨
    world.memory.translate (argument 1) (argument 2) = none ∨
    ∀ data, (FileStore.read (readName config world (argument 0)) world.host.files).1 ≠
      .ok (some data)

theorem runFileRead_of_nothing (world : World κ φ τ)
    (nothing : ReadsNothing config argument world) :
    ∃ after : World κ φ τ, after.memory = world.memory ∧
      runFileRead config argument world = (.done (some 0), after) := by
  unfold runFileRead
  dsimp only
  split
  · exact ⟨world, rfl, rfl⟩
  rename_i asks
  split
  · rename_i data held
    simp only [Bool.or_eq_true, String.isEmpty_iff, Option.isNone_iff_eq_none, not_or] at asks
    obtain empty | refused | missing := nothing
    · exact absurd empty asks.1
    · exact absurd refused asks.2
    · exact absurd held (missing data)
  · exact ⟨_, World.memory_onFiles .., rfl⟩

/-- A read of something puts as much of it into the range as there is room for. -/
theorem runFileRead_of_something (something : ¬ReadsNothing config argument world) :
    ∃ (data : List UInt8) (between : World κ φ τ) (place : Nat),
      (FileStore.read (readName config world (argument 0)) world.host.files).1 =
        .ok (some data) ∧
      world.memory.translate (argument 1) (argument 2) = some place ∧
      between.memory = world.memory ∧
      runFileRead config argument world =
        (.done (some (firstBytes data (argument 2)).length),
          between.write (argument 1) (firstBytes data (argument 2))) := by
  simp only [ReadsNothing, not_or, not_forall, not_not] at something
  obtain ⟨named, accepted, data, held⟩ := something
  obtain ⟨place, translated⟩ := Option.ne_none_iff_exists'.mp accepted
  refine ⟨data, _, place, held, translated, World.memory_onFiles world
    fun _ ↦ ((FileStore.read (readName config world (argument 0)) world.host.files).1.map
      fun _ ↦ 0, (FileStore.read (readName config world (argument 0)) world.host.files).2), ?_⟩
  unfold runFileRead
  dsimp only
  rw [translated, if_neg (by simp [named]), held]

theorem firstBytes_natCast (data : List UInt8) (count : Nat) :
    firstBytes data count = data.take count := by
  rw [firstBytes, Memory.sliceEnd, if_neg (by omega), Int.toNat_natCast]

/-- With the window at zero these bytes have one place, and no byte but theirs changes. -/
theorem runFileRead_delivered (world : World κ φ τ) (base : world.memory.base = 0)
    (address : argument 1 = place) (count : argument 2 = length)
    (something : ¬ReadsNothing config argument world) :
    ∃ (data : List UInt8) (after : World κ φ τ),
      (FileStore.read (readName config world (argument 0)) world.host.files).1 =
        .ok (some data) ∧
      runFileRead config argument world = (.done (some (min length data.length : Nat)), after) ∧
      world.memory.Delivered after.memory place (min length data.length) (data[·]?) := by
  obtain ⟨data, between, offset, held, accepted, memory, ran⟩ := runFileRead_of_something something
  rw [address, count] at accepted
  rw [address, count, firstBytes_natCast] at ran
  have size : (data.take length).length = min length data.length := List.length_take
  have fits : place + length ≤ world.memory.size := by
    refine Decidable.byContradiction fun beyond ↦ ?_
    rw [Memory.translate_of_base_zero base, if_neg beyond] at accepted
    cases accepted
  have there : world.memory.translate place (data.take length).length = some place := by
    rw [Memory.translate_of_base_zero base, if_pos (by omega)]
  rw [World.write_of_translate (memory ▸ there), memory, size] at ran
  refine ⟨data, _, held, ran, ?_⟩
  rw [← size]
  refine ((Memory.overwritten_put there).congr fun k within ↦ ?_).delivered
  exact List.getElem?_take_of_lt (by omega)

end Service

/-! ## The calls -/

namespace Machine

variable {κ φ τ : Type}

/-- The name that a register points to. -/
def fileName (machine : Machine κ φ τ) (index : Nat) : String :=
  Service.readName machine.config machine.world (machine.arguments index)

/-- The registers have a name and a range for a call on a file, and the window is at zero. -/
structure Requests (machine : Machine κ φ τ) (name : String) (place length : Nat) : Prop where
  base : machine.world.memory.base = 0
  fileName : machine.fileName 0 = name
  address : (machine.registers.read 1).toNat = place
  count : (machine.registers.read 2).toNat = length

/-- A call to read a file gives nothing. -/
def ReadsNothing [FileStore φ] (machine : Machine κ φ τ) : Prop :=
  Service.ReadsNothing machine.config machine.arguments machine.world

section

variable {machine : Machine κ φ τ} {name : String} {place length : Nat}

/-- What the registers hold, as the service takes it. -/
theorem Requests.arguments (requests : machine.Requests name place length) (service : Service) :
    machine.arguments 1 = place ∧ machine.arguments 2 = length ∧
      Service.readName machine.config (machine.world.noteCall service) (machine.arguments 0) =
        name :=
  ⟨congrArg Nat.cast requests.address, congrArg Nat.cast requests.count, requests.fileName⟩

/-- Every count up to that in the register fits into one. -/
theorem Requests.toNat_ofInt (requests : machine.Requests name place length) {count : Nat}
    (most : count ≤ length) : (BitVec.ofInt 64 (count : Int)).toNat = count := by
  have small := (machine.registers.read 2).isLt
  have limit := requests.count
  rw [BitVec.ofInt_natCast, BitVec.toNat_ofNat, Nat.mod_eq_of_lt (by omega)]

theorem readsNothing_iff [FileStore φ] (requests : machine.Requests name place length) :
    machine.ReadsNothing ↔ name = "" ∨ ¬place + length ≤ machine.world.memory.size ∨
      ∀ data, (FileStore.read name machine.world.host.files).1 ≠ .ok (some data) := by
  obtain ⟨address, count, -⟩ := requests.arguments .fileRead
  have named : Service.readName machine.config machine.world (machine.arguments 0) = name :=
    requests.fileName
  rw [ReadsNothing, Service.ReadsNothing, named, address, count,
    Memory.translate_of_base_zero requests.base]
  simp

variable [Console κ] [FileStore φ] [Clock τ]

/-- A call to write a file answers what the store does, and with zero if it fails. -/
theorem call_fileWrite (requests : machine.Requests name place length) :
    let written := machine.call .fileWrite
    let reply := Service.fileWriteFrom name (machine.world.memory.range? place length) length
      machine.world.host.files
    written.registers.read 0 = BitVec.ofInt 64 (reply.1.toOption.getD 0) ∧
      written.world.host.files = reply.2 := by
  obtain ⟨address, count, named⟩ := requests.arguments .fileWrite
  obtain ⟨noted, host, ran⟩ := Service.runFileWrite_eq machine.config
    (machine.world.noteCall .fileWrite) requests.base address count
  have files : noted.host.files = machine.world.host.files := congrArg Host.files host
  rw [named] at ran
  obtain ⟨answer, world⟩ := call_answered .fileWrite ran
  dsimp only
  rw [answer, world, World.answer_onFiles, World.files_onFiles, files]
  exact ⟨rfl, rfl⟩

theorem call_fileWrite_refused (requests : machine.Requests name place length)
    (refused : name = "" ∨ ¬machine.world.memory.Covers place length) :
    (machine.call .fileWrite).registers.read 0 = 0 ∧
      (machine.call .fileWrite).world.host.files = machine.world.host.files := by
  have idle : Service.fileWriteFrom name (machine.world.memory.range? place length) length
      machine.world.host.files = (.ok 0, machine.world.host.files) := by
    obtain rfl | outside := refused
    · cases machine.world.memory.range? place length <;> rfl
    · rw [Memory.range?, if_neg outside]
      rfl
  obtain ⟨answer, files⟩ := call_fileWrite requests
  rw [idle] at answer files
  exact ⟨answer, files⟩

theorem call_fileRead_of_nothing (nothing : machine.ReadsNothing) :
    (machine.call .fileRead).registers.read 0 = 0 ∧
      (machine.call .fileRead).world.memory = machine.world.memory := by
  obtain ⟨after, memory, ran⟩ := Service.runFileRead_of_nothing
    (machine.world.noteCall .fileRead) nothing
  obtain ⟨answer, world⟩ := call_answered .fileRead ran
  exact ⟨answer, (congrArg World.memory world).trans memory⟩

/-- A call to read a file that there is puts the front of the file into the range. -/
theorem call_fileRead_of_something (requests : machine.Requests name place length)
    (something : ¬machine.ReadsNothing) :
    ∃ data : List UInt8,
      (FileStore.read name machine.world.host.files).1 = .ok (some data) ∧
      ((machine.call .fileRead).registers.read 0).toNat = min length data.length ∧
      machine.world.memory.Delivered (machine.call .fileRead).world.memory place
        (min length data.length) (data[·]?) := by
  obtain ⟨address, count, named⟩ := requests.arguments .fileRead
  obtain ⟨data, after, held, ran, delivered⟩ := Service.runFileRead_delivered
    (machine.world.noteCall .fileRead) requests.base address count something
  obtain ⟨answer, world⟩ := call_answered .fileRead ran
  rw [named] at held
  rw [answer, world]
  exact ⟨data, held, requests.toNat_ofInt (Nat.min_le_left ..), delivered⟩

theorem memory_of_call_fileRead_zero (requests : machine.Requests name place length)
    (zero : (machine.call .fileRead).registers.read 0 = 0) :
    (machine.call .fileRead).world.memory = machine.world.memory := by
  by_cases nothing : machine.ReadsNothing
  · exact (call_fileRead_of_nothing nothing).2
  · obtain ⟨data, -, answer, delivered⟩ := call_fileRead_of_something requests nothing
    rw [zero] at answer
    rw [← answer] at delivered
    exact delivered.eq_of_zero

end

/-! ## Both calls -/

variable [Console κ] [FileStore φ] [Clock τ]

/-- What has been written from one range is read into another, as far as there is room. -/
theorem fileRead_after_fileWrite {writer reader : Machine κ MemoryStore τ} {name : String}
    {origin count place length : Nat} (writes : writer.Requests name origin count)
    (reads : reader.Requests name place length)
    (named : name ≠ "") (sent : writer.world.memory.Covers origin count)
    (room : reader.world.memory.Covers place length)
    (kept : reader.world.host.files = (writer.call .fileWrite).world.host.files) :
    ((writer.call .fileWrite).registers.read 0).toNat = count ∧
      ((reader.call .fileRead).registers.read 0).toNat = min count length ∧
      reader.world.memory.Delivered (reader.call .fileRead).world.memory place (min count length)
        fun k ↦ writer.world.memory.bytes[origin + k]? := by
  obtain ⟨answer, files⟩ := call_fileWrite writes
  have stores : Service.fileWriteFrom name (some (writer.world.memory.range origin count)) count
      writer.world.host.files =
        (.ok count, writer.world.host.files.write name (writer.world.memory.range origin count)) :=
    if_neg (by simp [named])
  rw [Memory.range?, if_pos sent, stores] at answer files
  have size := Memory.length_range sent
  have held : (FileStore.read name reader.world.host.files).1 =
      .ok (some (writer.world.memory.range origin count)) := by
    rw [kept, files]
    exact congrArg Except.ok (MemoryStore.read_write_self ..)
  refine ⟨(congrArg BitVec.toNat answer).trans (writes.toNat_ofInt (Nat.le_refl _)), ?_⟩
  by_cases nothing : reader.ReadsNothing
  · -- The name is given and the file is there, so the range is the empty one.
    have empty : length = 0 := by
      obtain noName | outside | missing := (readsNothing_iff reads).mp nothing
      · exact absurd noName named
      · exact (Memory.covers_iff.mp room).resolve_right outside
      · exact absurd held (missing _)
    obtain ⟨zero, same⟩ := call_fileRead_of_nothing nothing
    rw [zero, same, empty, Nat.min_zero]
    exact ⟨rfl, .nothing ..⟩
  · obtain ⟨data, found, answers, delivered⟩ := call_fileRead_of_something reads nothing
    cases Option.some.inj (Except.ok.inj (found.symm.trans held))
    rw [size, Nat.min_comm] at answers delivered
    exact ⟨answers, delivered.congr fun k within ↦ Memory.getElem?_range (by omega)⟩

/--
A call to write a file answers the length of its range, and a call to read the file of that name
answers the smaller of both lengths, gives the first bytes of its range what the other range held
and changes no other byte. A call to read that has no name, whose range is not in memory or for
which the store has no file answers zero, and whenever one does memory is as before. A call to write
that has no name or whose range is not in memory answers zero, and the files are as before.
-/
theorem call_fileWrite_fileRead :
    (∀ (writer reader : Machine κ MemoryStore τ) (name : String) (origin count place room : Nat),
      writer.Requests name origin count → reader.Requests name place room → name ≠ "" →
      writer.world.memory.Covers origin count → reader.world.memory.Covers place room →
      reader.world.host.files = (writer.call .fileWrite).world.host.files →
      ((writer.call .fileWrite).registers.read 0).toNat = count ∧
      ((reader.call .fileRead).registers.read 0).toNat = min count room ∧
      reader.world.memory.Delivered (reader.call .fileRead).world.memory place (min count room)
        fun k ↦ writer.world.memory.bytes[origin + k]?) ∧
    ∀ (machine : Machine κ φ τ) (name : String) (place length : Nat),
      machine.Requests name place length →
      (name = "" ∨ ¬machine.world.memory.Covers place length ∨
          (∀ data, (FileStore.read name machine.world.host.files).1 ≠ .ok (some data)) →
        (machine.call .fileRead).registers.read 0 = 0) ∧
      ((machine.call .fileRead).registers.read 0 = 0 →
        (machine.call .fileRead).world.memory = machine.world.memory) ∧
      (name = "" ∨ ¬machine.world.memory.Covers place length →
        (machine.call .fileWrite).registers.read 0 = 0 ∧
          (machine.call .fileWrite).world.host.files = machine.world.host.files) := by
  constructor
  · intro writer reader name origin count place room writes reads named sent covers kept
    exact fileRead_after_fileWrite writes reads named sent covers kept
  · intro machine name place length requests
    refine ⟨fun nothing ↦ ?_, memory_of_call_fileRead_zero requests,
      call_fileWrite_refused requests⟩
    have outside : ¬machine.world.memory.Covers place length →
        ¬place + length ≤ machine.world.memory.size := fun uncovered fits ↦
      uncovered (Memory.covers_iff.mpr (.inr fits))
    have reads := (readsNothing_iff requests).mpr (nothing.imp_right (Or.imp_left outside))
    exact (call_fileRead_of_nothing reads).1

/-- Three bytes are written and two of them read back over the last of the three. A store that
cannot be read gives nothing, and what lies beyond memory is not written. -/
theorem call_fileWrite_fileRead_overlapping :
    let writer : Machine BufferConsole MemoryStore ManualClock :=
      ((ofMemory {} ⟨0, #[97, 0, 1, 2, 3, 4, 5, 6], 8⟩
        ⟨.ofInput [], .empty, .startingAt 0⟩ #[]).write .w64 1 2).write .w64 2 3
    let reader := (((writer.call .fileWrite).write .w64 0 0).write .w64 1 4).write .w64 2 2
    let failing : Machine BufferConsole (FailingStore MemoryStore) ManualClock :=
      ((ofMemory {} ⟨0, #[97, 0, 1, 2], 4⟩
        ⟨.ofInput [], ⟨⟨[("a", [7])]⟩, [.read]⟩, .startingAt 0⟩ #[]).write .w64 1 2).write .w64 2 2
    let beyond := failing.write .w64 2 3
    writer.Requests "a" 2 3 ∧ reader.Requests "a" 4 2 ∧
      ((writer.call .fileWrite).registers.read 0).toNat = 3 ∧
      ((reader.call .fileRead).registers.read 0).toNat = min 3 2 ∧
      reader.world.memory.Delivered (reader.call .fileRead).world.memory 4 (min 3 2)
        (fun k ↦ writer.world.memory.bytes[2 + k]?) ∧
      failing.Requests "a" 2 2 ∧ (failing.call .fileRead).registers.read 0 = 0 ∧
      (failing.call .fileRead).world.memory = failing.world.memory ∧
      beyond.Requests "a" 2 3 ∧ (beyond.call .fileWrite).registers.read 0 = 0 ∧
      (beyond.call .fileWrite).world.host.files = beyond.world.host.files := by
  intro writer reader failing beyond
  obtain ⟨roundTrip, refusals⟩ :=
    @call_fileWrite_fileRead BufferConsole (FailingStore MemoryStore) ManualClock _ _ _
  have writes : writer.Requests "a" 2 3 := ⟨rfl, by decide, by decide, by decide⟩
  have reads : reader.Requests "a" 4 2 := ⟨rfl, by decide, by decide, by decide⟩
  have fails : failing.Requests "a" 2 2 := ⟨rfl, by decide, by decide, by decide⟩
  have outside : beyond.Requests "a" 2 3 := ⟨rfl, by decide, by decide, by decide⟩
  obtain ⟨sent, received, delivered⟩ := roundTrip writer reader "a" 2 3 4 2 writes reads (by decide)
    (by decide) (by decide) rfl
  obtain ⟨unread, kept, -⟩ := refusals failing "a" 2 2 fails
  have zero := unread (.inr (.inr fun data held ↦ by cases held))
  obtain ⟨-, -, unwritten⟩ := refusals beyond "a" 2 3 outside
  exact ⟨writes, reads, sent, received, delivered, fails, zero, kept zero, outside,
    unwritten (.inr (by decide))⟩

end Machine

end MiniA64
