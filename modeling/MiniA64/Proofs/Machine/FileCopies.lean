import MiniA64.Proofs.Machine.FileContents

/-!
# Copying and moving files

A copy reads its source, creates its target and writes it, and a move then deletes the source. It
asks the store for each of these operations at most once, so the operations that fail are all that
there is to a pattern of failures. A file that exists is never written to, and a source is deleted
only when its bytes are in the target, so no bytes are lost. But nothing is taken back either. A
target that has been created stays when it cannot be written, and a target that has been written
stays beside a source that cannot be deleted, although both calls answer zero.
-/

namespace MiniA64

/-! ## Stores -/

namespace MemoryStore

variable (store : MemoryStore) {name other : String} {data : List UInt8}

theorem create_of_absent (absent : store.read name = none) :
    store.create name = (true, store.write name []) := by
  rw [create, contains_eq, absent]
  rfl

theorem create_of_held (held : store.read name = some data) :
    store.create name = (false, store) := by
  rw [create, contains_eq, held]
  rfl

theorem read_write_of_ne (apart : other ≠ name) :
    (store.write name data).read other = store.read other :=
  (store.read_write name other data).trans (if_neg apart)

theorem read_delete_self : (store.delete name).2.read name = none :=
  (store.read_delete name name).trans (if_pos rfl)

theorem read_delete_of_ne (apart : other ≠ name) :
    (store.delete name).2.read other = store.read other :=
  (store.read_delete name other).trans (if_neg apart)

/-- Of two writes to a file the first leaves nothing but the place of the file among the others. -/
theorem write_write (first second : List UInt8) :
    (store.write name first).write name second = store.write name second := by
  have held : (store.write name first).contains name = true := by
    rw [contains_eq, read_write_self]
    rfl
  rw [write, if_pos held]
  unfold write
  split
  · rw [List.map_map]
    congr 2
    funext file
    by_cases same : file.1 = name <;> simp [same]
  · rename_i missing
    have others (file) (mem : file ∈ store.files) : file.1 ≠ name := fun same ↦
      missing (List.any_eq_true.mpr ⟨file, mem, decide_eq_true same⟩)
    have kept := calc store.files.map (fun file ↦ if file.1 = name then (name, second) else file)
      _ = store.files.map id := List.map_congr_left fun file mem ↦ if_neg (others file mem)
      _ = store.files := List.map_id _
    rw [List.map_append, kept, List.map_singleton, if_pos rfl]

end MemoryStore

namespace FailingStore

theorem attempt_eq {φ α : Type} (device : FailingStore φ) (operation : FileOperation)
    (action : φ → Reply φ α) :
    attempt operation action device =
      if operation ∈ device.failing then (.error diskFull, device)
      else ((action device.store).1, { device with store := (action device.store).2 }) :=
  if_congr List.contains_iff_mem rfl rfl

variable (device : FailingStore MemoryStore) (name : String)

theorem read_eq :
    FileStore.read name device =
      if .read ∈ device.failing then (.error diskFull, device)
      else (.ok (device.store.read name), device) :=
  device.attempt_eq .read _

theorem create_eq :
    FileStore.create name device =
      if .create ∈ device.failing then (.error diskFull, device)
      else
        (.ok (device.store.create name).1, { device with store := (device.store.create name).2 }) :=
  device.attempt_eq .create _

theorem write_eq (data : List UInt8) :
    FileStore.write name data device =
      if .write ∈ device.failing then (.error diskFull, device)
      else (.ok (), { device with store := device.store.write name data }) :=
  device.attempt_eq .write _

theorem delete_eq :
    FileStore.delete name device =
      if .delete ∈ device.failing then (.error diskFull, device)
      else
        (.ok (device.store.delete name).1, { device with store := (device.store.delete name).2 }) :=
  device.attempt_eq .delete _

end FailingStore

/-! ## Copies -/

namespace FileCopy

variable {device : FailingStore MemoryStore} {moves : Bool} {source target : String}

/-- The copy finds its source and makes its target: both have names, the one is there and can be
read, and the other is not there and can be created. -/
structure Begins (device : FailingStore MemoryStore) (source target : String)
    (data : List UInt8) : Prop where
  named : source ≠ "" ∧ target ≠ ""
  granted : .read ∉ device.failing ∧ .create ∉ device.failing
  found : device.store.read source = some data
  free : device.store.read target = none

/-- The answer of a copy, or of a move, and the files after it. -/
inductive Ends (device : FailingStore MemoryStore) (moves : Bool) (source target : String) :
    Int → MemoryStore → Prop
  | refused (stopped : ∀ data, ¬Begins device source target data) :
    Ends device moves source target 0 device.store
  | unwritten {data : List UInt8} (begins : Begins device source target data)
      (fails : .write ∈ device.failing) :
    Ends device moves source target 0 (device.store.write target [])
  | undeleted {data : List UInt8} (begins : Begins device source target data)
      (written : .write ∉ device.failing) (moving : moves = true)
      (fails : .delete ∈ device.failing) :
    Ends device moves source target 0 (device.store.write target data)
  | copied {data : List UInt8} (begins : Begins device source target data)
      (written : .write ∉ device.failing) (copying : moves = false) :
    Ends device moves source target 1 (device.store.write target data)
  | moved {data : List UInt8} (begins : Begins device source target data)
      (written : .write ∉ device.failing) (moving : moves = true)
      (deleted : .delete ∉ device.failing) :
    Ends device moves source target 1 ((device.store.write target data).delete source).2

theorem Begins.read_eq {data : List UInt8} (begins : Begins device source target data) :
    FileStore.read source device = (.ok (some data), device) := by
  rw [FailingStore.read_eq, if_neg begins.granted.1, begins.found]

theorem Begins.create_eq {data : List UInt8} (begins : Begins device source target data) :
    FileStore.create target device =
      (.ok true, { device with store := device.store.write target [] }) := by
  rw [FailingStore.create_eq, if_neg begins.granted.2, device.store.create_of_absent begins.free]

/-- A copy that begins ends with what becomes of its target, and of the source of a move. -/
theorem Begins.ends_transferFile {data : List UInt8} (begins : Begins device source target data) :
    Ends device moves source target
      ((Service.transferFile moves source target device).1.toOption.getD 0)
      (Service.transferFile moves source target device).2.store := by
  have named : (source.isEmpty || target.isEmpty) = false := by simp [begins.named]
  unfold Service.transferFile
  rw [named, if_neg Bool.false_ne_true, begins.read_eq]
  dsimp only
  rw [begins.create_eq]
  dsimp only
  rw [FailingStore.write_eq]
  by_cases writes : .write ∈ device.failing
  · rw [if_pos writes]
    exact .unwritten begins writes
  rw [if_neg writes, MemoryStore.write_write]
  cases moves with
  | false => exact .copied begins writes rfl
  | true =>
    dsimp only
    rw [if_pos rfl, FailingStore.delete_eq]
    by_cases deletes : .delete ∈ device.failing
    · rw [if_pos deletes]
      exact .undeleted begins writes rfl deletes
    · rw [if_neg deletes]
      exact .moved begins writes rfl deletes

/-- A copy that does not begin answers zero or fails, and changes nothing. -/
theorem transferFile_refused (stopped : ∀ data, ¬Begins device source target data) :
    (Service.transferFile moves source target device).1.toOption.getD 0 = 0 ∧
      (Service.transferFile moves source target device).2 = device := by
  unfold Service.transferFile
  split
  · exact ⟨rfl, rfl⟩
  rename_i named
  rw [FailingStore.read_eq]
  by_cases reads : .read ∈ device.failing
  · rw [if_pos reads]
    exact ⟨rfl, rfl⟩
  rw [if_neg reads]
  cases found : device.store.read source with
  | none => exact ⟨rfl, rfl⟩
  | some data =>
    dsimp only
    rw [FailingStore.create_eq]
    by_cases creates : .create ∈ device.failing
    · rw [if_pos creates]
      exact ⟨rfl, rfl⟩
    rw [if_neg creates]
    cases free : device.store.read target with
    | none =>
      have names : source ≠ "" ∧ target ≠ "" := by simpa using named
      exact absurd ⟨names, ⟨reads, creates⟩, found, free⟩ (stopped data)
    | some held =>
      rw [device.store.create_of_held free]
      exact ⟨rfl, rfl⟩

/-- Every copy and every move ends in one of these ways. -/
theorem ends_transferFile :
    Ends device moves source target
      ((Service.transferFile moves source target device).1.toOption.getD 0)
      (Service.transferFile moves source target device).2.store := by
  by_cases begun : ∃ data, Begins device source target data
  · obtain ⟨data, begins⟩ := begun
    exact begins.ends_transferFile
  · have stopped := not_exists.mp begun
    obtain ⟨zero, kept⟩ := transferFile_refused stopped
    rw [zero, kept]
    exact .refused stopped

/-! ## What a copy leaves -/

variable {data : List UInt8} {answer : Int} {store : MemoryStore} {name : String}

theorem Begins.apart (begins : Begins device source target data) : source ≠ target := by
  rintro rfl
  cases begins.found.symm.trans begins.free

/-- The first register tells the answers apart. -/
theorem Ends.register (ends : Ends device moves source target answer store) :
    (BitVec.ofInt 64 answer = 0 ↔ answer = 0) ∧ (BitVec.ofInt 64 answer = 1 ↔ answer = 1) := by
  cases ends <;> decide

theorem Ends.read_of_ne (ends : Ends device moves source target answer store)
    (notSource : name ≠ source) (notTarget : name ≠ target) :
    store.read name = device.store.read name := by
  cases ends with
  | refused => rfl
  | unwritten | undeleted | copied => exact MemoryStore.read_write_of_ne _ notTarget
  | moved =>
    rw [MemoryStore.read_delete_of_ne _ notSource, MemoryStore.read_write_of_ne _ notTarget]

theorem Ends.of_taken (ends : Ends device moves source target answer store)
    (taken : device.store.read target ≠ none) : store = device.store ∧ answer = 0 := by
  cases ends with
  | refused => exact ⟨rfl, rfl⟩
  | unwritten begins | undeleted begins | copied begins | moved begins =>
    exact absurd begins.free taken

/-- The bytes of the source are where they were until they are in the target. -/
theorem Ends.bytes_kept (ends : Ends device moves source target answer store)
    (held : device.store.read source = some data) :
    store.read source = some data ∨ store.read target = some data := by
  cases ends with
  | refused => exact .inl held
  | unwritten begins | undeleted begins | copied begins =>
    exact .inl ((MemoryStore.read_write_of_ne _ begins.apart).trans held)
  | moved begins =>
    cases begins.found.symm.trans held
    rw [MemoryStore.read_delete_of_ne _ begins.apart.symm, MemoryStore.read_write_self]
    exact .inr rfl

theorem Ends.of_one (ends : Ends device moves source target 1 store) :
    ∃ data, device.store.read source = some data ∧ store.read target = some data ∧
      store.read source = if moves then none else some data := by
  cases ends with
  | copied begins _ copying =>
    refine ⟨_, begins.found, MemoryStore.read_write_self .., ?_⟩
    rw [copying, MemoryStore.read_write_of_ne _ begins.apart]
    exact begins.found
  | moved begins _ moving =>
    refine ⟨_, begins.found, ?_, ?_⟩
    · rw [MemoryStore.read_delete_of_ne _ begins.apart.symm, MemoryStore.read_write_self]
    · rw [moving, MemoryStore.read_delete_self]
      rfl

/-- A copy that answers zero has changed nothing if it has not made its target, and nothing but the
target if it has. -/
theorem Ends.of_zero (ends : Ends device moves source target 0 store) :
    ((∀ data, ¬Begins device source target data) → store = device.store) ∧
      ∀ data, Begins device source target data →
        (.write ∈ device.failing → store = device.store.write target []) ∧
        (.write ∉ device.failing → moves = true ∧ .delete ∈ device.failing ∧
          store = device.store.write target data) := by
  cases ends with
  | refused stopped => exact ⟨fun _ ↦ rfl, fun data begins ↦ absurd begins (stopped data)⟩
  | unwritten begins fails =>
    exact ⟨fun stopped ↦ absurd begins (stopped _), fun _ _ ↦ ⟨fun _ ↦ rfl, absurd fails⟩⟩
  | undeleted begins written moving fails =>
    refine ⟨fun stopped ↦ absurd begins (stopped _), fun data same ↦ ⟨(absurd · written), ?_⟩⟩
    cases begins.found.symm.trans same.found
    exact fun _ ↦ ⟨moving, fails, rfl⟩

end FileCopy

/-! ## The calls -/

/-- The service that copies a file, or moves it. -/
def Service.copying (moves : Bool) : Service := if moves then .fileMove else .fileCopy

namespace Machine

open FileCopy

variable {κ τ : Type} [Console κ] [Clock τ]

/-- A call ends as the copy of the files that its registers point to the names of. -/
theorem call_copying (machine : Machine κ (FailingStore MemoryStore) τ) (moves : Bool) :
    ∃ answer, (machine.call (.copying moves)).registers.read 0 = BitVec.ofInt 64 answer ∧
      Ends machine.world.host.files moves (machine.fileName 0) (machine.fileName 1) answer
        (machine.call (.copying moves)).world.host.files.store := by
  have ran : Service.run machine.config (.copying moves) machine.arguments
      (machine.world.noteCall (.copying moves)) =
      Service.returning ((machine.world.noteCall (.copying moves)).onFiles
        (Service.transferFile moves (machine.fileName 0) (machine.fileName 1))) := by
    cases moves <;> rfl
  obtain ⟨answer, world⟩ := call_answered (.copying moves) ran
  refine ⟨_, answer, ?_⟩
  rw [world, World.answer_onFiles, World.files_onFiles]
  exact ends_transferFile

/--
Whatever fails in a copy or a move, no bytes are lost. Files that it does not name are as they were.
If there is a file of the target's name, nothing has changed and the answer is zero. The bytes of a
source are still there, under its name or the target's. And if the answer is one, the target has
them, and the source is gone after a move and as it was after a copy.
-/
theorem call_copying_keeps (machine : Machine κ (FailingStore MemoryStore) τ) (moves : Bool) :
    let before := machine.world.host.files.store
    let called := machine.call (.copying moves)
    let after := called.world.host.files.store
    (∀ name, name ≠ machine.fileName 0 → name ≠ machine.fileName 1 →
      after.read name = before.read name) ∧
    (before.read (machine.fileName 1) ≠ none → after = before ∧ called.registers.read 0 = 0) ∧
    (∀ data, before.read (machine.fileName 0) = some data →
      after.read (machine.fileName 0) = some data ∨
        after.read (machine.fileName 1) = some data) ∧
    (called.registers.read 0 = 1 →
      ∃ data, before.read (machine.fileName 0) = some data ∧
        after.read (machine.fileName 1) = some data ∧
        after.read (machine.fileName 0) = if moves then none else some data) := by
  intro before called after
  obtain ⟨answer, register, ends⟩ := machine.call_copying moves
  have answers : called.registers.read 0 = BitVec.ofInt 64 answer := register
  refine ⟨fun _ notSource notTarget ↦ ends.read_of_ne notSource notTarget, fun taken ↦ ?_,
    fun _ held ↦ ends.bytes_kept held, fun one ↦ ?_⟩
  · obtain ⟨same, zero⟩ := ends.of_taken taken
    exact ⟨same, answers.trans (ends.register.1.mpr zero)⟩
  · obtain rfl := ends.register.2.mp (answers.symm.trans one)
    exact ends.of_one

/-- A move to a name that is free, and one to a name that is taken. -/
theorem call_copying_keeps_moved :
    let machine : Machine BufferConsole (FailingStore MemoryStore) ManualClock :=
      (ofMemory {} ⟨0, #[97, 0, 98, 0, 99, 0], 6⟩
        ⟨.ofInput [], ⟨⟨[("a", [7]), ("c", [8])]⟩, []⟩, .startingAt 0⟩ #[]).write .w64 1 2
    let taken := machine.write .w64 1 4
    (machine.call (.copying true)).registers.read 0 = 1 ∧
      (machine.call (.copying true)).world.host.files.store.read "a" = none ∧
      (machine.call (.copying true)).world.host.files.store.read "b" = some [7] ∧
      (machine.call (.copying true)).world.host.files.store.read "c" = some [8] ∧
      (taken.call (.copying true)).world.host.files.store = taken.world.host.files.store ∧
      (taken.call (.copying true)).registers.read 0 = 0 := by
  intro machine taken
  have source : machine.fileName 0 = "a" := by decide
  have target : machine.fileName 1 = "b" := by decide
  have held : machine.world.host.files.store.read "a" = some [7] := by decide
  have third : machine.world.host.files.store.read "c" = some [8] := by decide
  have there : taken.world.host.files.store.read (taken.fileName 1) ≠ none := by decide
  have one : (machine.call (.copying true)).registers.read 0 = 1 := by decide
  obtain ⟨others, -, -, done⟩ := machine.call_copying_keeps true
  obtain ⟨data, found, copied, gone⟩ := done one
  obtain ⟨-, refused, -⟩ := taken.call_copying_keeps true
  rw [source] at found gone others
  rw [target] at copied others
  cases held.symm.trans found
  exact ⟨one, gone, copied, (others "c" (by decide) (by decide)).trans third, refused there⟩

/--
A copy or a move that answers zero before it has made its target leaves the files as they were. One
that has made it failed to write it, and leaves it empty, or it is a move that failed to delete its
source, and leaves the bytes in both. All other files are as they were.
-/
theorem call_copying_refused (machine : Machine κ (FailingStore MemoryStore) τ) (moves : Bool)
    (zero : (machine.call (.copying moves)).registers.read 0 = 0) :
    let device := machine.world.host.files
    let after := (machine.call (.copying moves)).world.host.files.store
    ((∀ data, ¬Begins device (machine.fileName 0) (machine.fileName 1) data) →
      after = device.store) ∧
    ∀ data, Begins device (machine.fileName 0) (machine.fileName 1) data →
      (.write ∈ device.failing → after = device.store.write (machine.fileName 1) []) ∧
      (.write ∉ device.failing → moves = true ∧ .delete ∈ device.failing ∧
        after = device.store.write (machine.fileName 1) data) := by
  obtain ⟨answer, register, ends⟩ := machine.call_copying moves
  obtain rfl := ends.register.1.mp (register.symm.trans zero)
  exact ends.of_zero

/-- A move that cannot delete its source leaves its bytes in both files. -/
theorem call_copying_refused_undeleted :
    let machine : Machine BufferConsole (FailingStore MemoryStore) ManualClock :=
      (ofMemory {} ⟨0, #[97, 0, 98, 0], 4⟩
        ⟨.ofInput [], ⟨⟨[("a", [7])]⟩, [.delete]⟩, .startingAt 0⟩ #[]).write .w64 1 2
    (machine.call (.copying true)).registers.read 0 = 0 ∧
      Begins machine.world.host.files (machine.fileName 0) (machine.fileName 1) [7] ∧
      (machine.call (.copying true)).world.host.files.store = ⟨[("a", [7]), ("b", [7])]⟩ := by
  intro machine
  have zero : (machine.call (.copying true)).registers.read 0 = 0 := by decide
  have begins : Begins machine.world.host.files (machine.fileName 0) (machine.fileName 1) [7] :=
    ⟨by decide, by decide, by decide, by decide⟩
  obtain ⟨-, left⟩ := machine.call_copying_refused true zero
  obtain ⟨-, -, both⟩ := (left [7] begins).2 (by decide)
  exact ⟨zero, begins, both⟩

/-- A copy that cannot write its target leaves it empty, where there was no file before. -/
theorem call_copying_unwritten :
    let machine : Machine BufferConsole (FailingStore MemoryStore) ManualClock :=
      (ofMemory {} ⟨0, #[97, 0, 98, 0], 4⟩
        ⟨.ofInput [], ⟨⟨[("a", [7])]⟩, [.write]⟩, .startingAt 0⟩ #[]).write .w64 1 2
    (machine.call .fileCopy).registers.read 0 = 0 ∧
      machine.world.host.files.store.read "b" = none ∧
      (machine.call .fileCopy).world.host.files.store.read "b" = some [] := by
  decide

end Machine

end MiniA64
