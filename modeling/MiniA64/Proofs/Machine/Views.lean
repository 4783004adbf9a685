import MiniA64.Proofs.Machine.Attempts

/-!
# Views of a machine

A view shows a machine with other devices and with another log. Its devices answer as the hidden
ones do, and a record that is added is added to what is seen. Whatever a machine does is then seen
as the machine does it: a step of the machine that is seen is the step of the machine, seen
afterwards.

Nothing that a machine does depends on its log, which is a view as well: records that were there
before are only kept.
-/

namespace MiniA64

/-- What a device answers is what the hidden one answers, and what becomes of it is seen. -/
def Shows {σ' σ α : Type} (view : σ' → σ) (hidden : σ' → Reply σ' α) (shown : σ → Reply σ α) :
    Prop :=
  ∀ state, shown (view state) = ((hidden state).1, view (hidden state).2)

/-- A console is shown by another. -/
structure ShowsConsole {κ' κ : Type} [Console κ'] [Console κ] (view : κ' → κ) : Prop where
  write : ∀ data, Shows view (Console.write data) (Console.write data)
  readByte : Shows view Console.readByte Console.readByte

/-- A file store is shown by another. -/
structure ShowsFiles {φ' φ : Type} [FileStore φ'] [FileStore φ] (view : φ' → φ) : Prop where
  create : ∀ name, Shows view (FileStore.create name) (FileStore.create name)
  write : ∀ name data, Shows view (FileStore.write name data) (FileStore.write name data)
  read : ∀ name, Shows view (FileStore.read name) (FileStore.read name)
  delete : ∀ name, Shows view (FileStore.delete name) (FileStore.delete name)
  contains : ∀ name, Shows view (FileStore.contains name) (FileStore.contains name)

/-- A clock is shown by another. -/
structure ShowsClock {τ' τ : Type} [Clock τ'] [Clock τ] (view : τ' → τ) : Prop where
  sleep : ∀ duration state, view (Clock.sleep duration state) = Clock.sleep duration (view state)
  uptime : ∀ state, Clock.uptime (view state) = Clock.uptime state

/-- A log is shown by another. -/
def ShowsLog (view : Array LogRecord → Array LogRecord) : Prop :=
  ∀ records record, view (records.push record) = (view records).push record

theorem ShowsConsole.same {κ : Type} [Console κ] : ShowsConsole (id : κ → κ) :=
  ⟨fun _ _ ↦ rfl, fun _ ↦ rfl⟩

theorem ShowsFiles.same {φ : Type} [FileStore φ] : ShowsFiles (id : φ → φ) :=
  ⟨fun _ _ ↦ rfl, fun _ _ _ ↦ rfl, fun _ _ ↦ rfl, fun _ _ ↦ rfl, fun _ _ ↦ rfl⟩

theorem ShowsClock.same {τ : Type} [Clock τ] : ShowsClock (id : τ → τ) :=
  ⟨fun _ _ ↦ rfl, fun _ ↦ rfl⟩

theorem ShowsLog.same : ShowsLog id := fun _ _ ↦ rfl

/-- A log that had begun with other records. -/
theorem ShowsLog.since (records : Array LogRecord) : ShowsLog (records ++ ·) :=
  fun _ _ ↦ Array.append_push

/-- A way to look at the devices and the log of a machine. -/
structure View (κ' κ φ' φ τ' τ : Type) [Console κ'] [Console κ] [FileStore φ'] [FileStore φ]
    [Clock τ'] [Clock τ] where
  console : κ' → κ
  files : φ' → φ
  clock : τ' → τ
  log : Array LogRecord → Array LogRecord
  shows_console : ShowsConsole console
  shows_files : ShowsFiles files
  shows_clock : ShowsClock clock
  shows_log : ShowsLog log

section

variable {κ' κ φ' φ τ' τ : Type} [Console κ'] [Console κ] [FileStore φ'] [FileStore φ]
  [Clock τ'] [Clock τ]
variable (view : View κ' κ φ' φ τ' τ)

/-- The world as it is seen. -/
def World.seen (world : World κ' φ' τ') : World κ φ τ :=
  { memory := world.memory
    screen := world.screen
    seed := world.seed
    host :=
      ⟨view.console world.host.console, view.files world.host.files, view.clock world.host.clock⟩
    log := view.log world.log }

/-- An answer and the world after it as it is seen. -/
def View.after {α : Type} (outcome : α × World κ' φ' τ') : α × World κ φ τ :=
  (outcome.1, outcome.2.seen view)

variable (world : World κ' φ' τ')

namespace World

theorem memory_seen : (world.seen view).memory = world.memory := rfl

theorem note_seen (level : LogLevel) (source message : String) :
    (world.seen view).note level source message = (world.note level source message).seen view := by
  simp only [note, seen, view.shows_log _]

theorem read_seen (address length : Int) :
    (world.seen view).read address length = view.after (world.read address length) := by
  unfold read
  rw [memory_seen]
  cases world.memory.read address length with
  | some data => rfl
  | none => exact congrArg (Prod.mk none) (note_seen view world ..)

theorem write_seen (address : Int) (data : List UInt8) :
    (world.seen view).write address data = (world.write address data).seen view := by
  unfold write
  rw [memory_seen]
  cases world.memory.translate address data.length with
  | some offset => rfl
  | none => exact note_seen view world ..

theorem print_seen (data : List UInt8) :
    (world.seen view).print data = view.after (world.print data) := by
  unfold print
  dsimp only [seen]
  rw [view.shows_console.write]
  rfl

theorem input_seen : (world.seen view).input = view.after world.input := by
  unfold input
  dsimp only [seen]
  rw [view.shows_console.readByte]
  rfl

theorem onFiles_seen {hidden : φ' → Reply φ' Int} {shown : φ → Reply φ Int}
    (shows : Shows view.files hidden shown) :
    (world.seen view).onFiles shown = view.after (world.onFiles hidden) := by
  have answer : shown (world.seen view).host.files =
      ((hidden world.host.files).1, view.files (hidden world.host.files).2) :=
    shows world.host.files
  let after : World κ' φ' τ' :=
    { world with host := { world.host with files := (hidden world.host.files).2 } }
  unfold onFiles
  rw [answer]
  dsimp only
  cases (hidden world.host.files).1 with
  | ok value => rfl
  | error error => exact congrArg (Prod.mk (0 : Int)) (note_seen view after ..)

end World

theorem Attempt.readLine_seen (buffer limit : Int) (rounds length : Nat) :
    Attempt.readLine buffer limit rounds length (world.seen view) =
      (Attempt.readLine buffer limit rounds length world).map view.after := by
  induction rounds generalizing length world with
  | zero => rfl
  | succ rounds ih =>
    have input (world : World κ' φ' τ') :
        Attempt.read (world.seen view) = view.after (Attempt.read world) := world.input_seen view
    have print (world : World κ' φ' τ') (data : List UInt8) :
        Attempt.write (world.seen view) data = view.after (Attempt.write world data) :=
      world.print_seen view data
    simp only [Attempt.readLine, input, print, View.after]
    split
    · split
      · rfl
      · rfl
      · split
        · rfl
        split
        · split
          · exact ih ..
          split
          · rfl
          · exact ih ..
        split
        · rfl
        · rw [World.write_seen]
          exact ih ..
    · rfl

namespace Service

theorem readLine_seen (buffer limit : Int) (length : Nat) :
    readLine buffer limit length (world.seen view) =
      view.after (readLine buffer limit length world) := by
  -- There are rounds enough for the line on both sides.
  obtain ⟨rounds, enough, many⟩ : ∃ rounds, world.inputLeft < rounds ∧
      (world.seen view).inputLeft < rounds :=
    ⟨max world.inputLeft (world.seen view).inputLeft + 1, by omega, by omega⟩
  have attempted := Attempt.readLine_seen view world buffer limit rounds length
  rw [Attempt.readLine_eq many, Attempt.readLine_eq enough] at attempted
  exact Except.ok.inj attempted

theorem runInputLine_seen (config : Config) (argument : Arguments) :
    runInputLine config argument (world.seen view) =
      view.after (runInputLine config argument world) := by
  unfold runInputLine
  dsimp only
  rw [readLine_seen]
  simp only [View.after]
  split
  · rfl
  · rw [World.write_seen]

/-! ### Files -/

section

variable {view}

/-- A file operation that is carried out unless the name is empty. -/
theorem shows_named {α : Type} {hidden : φ' → Reply φ' α} {shown : φ → Reply φ α}
    (shows : Shows view.files hidden shown) (name : String) (value : Int) (change : α → Int) :
    Shows view.files
      (fun files ↦ if name.isEmpty then (.ok value, files)
        else ((hidden files).1.map change, (hidden files).2))
      (fun files ↦ if name.isEmpty then (.ok value, files)
        else ((shown files).1.map change, (shown files).2)) := by
  intro files
  dsimp only
  split
  · rfl
  · rw [shows files]

theorem shows_fileWriteFrom (name : String) (data : Option (List UInt8)) (length : Int) :
    Shows view.files (fileWriteFrom name data length) (fileWriteFrom name data length) := by
  cases data with
  | none => exact fun _ ↦ rfl
  | some data => exact shows_named (view.shows_files.write name data) name 0 fun _ ↦ length

theorem shows_transferFile (removeSource : Bool) (source target : String) :
    Shows view.files (transferFile removeSource source target)
      (transferFile removeSource source target) := by
  intro files
  unfold transferFile
  rw [view.shows_files.read source files]
  split
  · rfl
  obtain ⟨_ | _ | data, files⟩ := FileStore.read source files
  · rfl
  · rfl
  dsimp only
  rw [view.shows_files.create target files]
  obtain ⟨_ | _ | _, files⟩ := FileStore.create target files
  · rfl
  · rfl
  dsimp only
  rw [view.shows_files.write target data files]
  obtain ⟨_ | _, files⟩ := FileStore.write target data files
  · rfl
  dsimp only
  rw [view.shows_files.delete source files]
  split <;> rfl

end

theorem askFiles_seen (name : String) {hidden : φ' → Reply φ' Bool} {shown : φ → Reply φ Bool}
    (shows : Shows view.files hidden shown) :
    askFiles name shown (world.seen view) = view.after (askFiles name hidden world) :=
  congrArg returning
    (world.onFiles_seen view (shows_named shows name 0 fun yes ↦ if yes then 1 else 0))

theorem runFileWrite_seen (config : Config) (argument : Arguments) :
    runFileWrite config argument (world.seen view) =
      view.after (runFileWrite config argument world) := by
  have fetched : (if argument 2 = 0 then (some [], world.seen view)
      else (world.seen view).read (argument 1) (argument 2)) =
      view.after (if argument 2 = 0 then (some [], world)
        else world.read (argument 1) (argument 2)) := by
    split
    · rfl
    · exact world.read_seen view ..
  unfold runFileWrite
  dsimp only
  rw [fetched]
  exact congrArg returning (World.onFiles_seen view _ (shows_fileWriteFrom _ _ _))

theorem runFileRead_seen (config : Config) (argument : Arguments) :
    runFileRead config argument (world.seen view) =
      view.after (runFileRead config argument world) := by
  have named : readName config (world.seen view) (argument 0) =
      readName config world (argument 0) := rfl
  unfold runFileRead
  dsimp only
  rw [named, World.memory_seen]
  generalize readName config world (argument 0) = name
  have read := view.shows_files.read name world.host.files
  have answer : (FileStore.read name (world.seen view).host.files).1 =
      (FileStore.read name world.host.files).1 := congrArg Prod.fst read
  have answered : (world.seen view).onFiles (fun _ ↦
      ((FileStore.read name (world.seen view).host.files).1.map fun _ ↦ 0,
        (FileStore.read name (world.seen view).host.files).2)) =
      view.after (world.onFiles fun _ ↦
        ((FileStore.read name world.host.files).1.map fun _ ↦ 0,
          (FileStore.read name world.host.files).2)) := by
    refine world.onFiles_seen view fun _ ↦ ?_
    exact congrArg
      (fun reply : Reply φ (Option (List UInt8)) ↦ (reply.1.map fun _ ↦ (0 : Int), reply.2)) read
  rw [answered, answer]
  split
  · rfl
  split
  · exact congrArg _ (World.write_seen view ..)
  · rfl

theorem runTransfer_seen (config : Config) (removeSource : Bool) (argument : Arguments) :
    runTransfer config removeSource argument (world.seen view) =
      view.after (runTransfer config removeSource argument world) :=
  congrArg returning (world.onFiles_seen view (shows_transferFile _ _ _))

theorem copyBytes_seen (argument : Arguments) :
    copyBytes argument (world.seen view) = (copyBytes argument world).seen view := by
  unfold copyBytes
  simp only [World.memory_seen, World.read_seen, View.after]
  split
  · rfl
  split
  · exact World.write_seen ..
  · rfl

theorem fillBytes_seen (argument : Arguments) :
    fillBytes argument (world.seen view) = (fillBytes argument world).seen view := by
  unfold fillBytes
  simp only [World.memory_seen, World.write_seen]
  split <;> rfl

/-- What a service does is seen as the service does it. -/
theorem run_seen (config : Config) (service : Service) (argument : Arguments) :
    run config service argument (world.seen view) =
      view.after (run config service argument world) := by
  cases service with
  | printString | printChar | printNumber | printHex =>
    exact congrArg ofAnswer (world.print_seen view _)
  | inputChar =>
    unfold run
    dsimp only
    rw [World.input_seen]
    obtain ⟨_ | _, _⟩ := world.input <;> rfl
  | inputLine => exact runInputLine_seen ..
  | fileCreate => exact askFiles_seen view world _ (view.shows_files.create _)
  | fileDelete => exact askFiles_seen view world _ (view.shows_files.delete _)
  | fileExists => exact askFiles_seen view world _ (view.shows_files.contains _)
  | fileWrite => exact runFileWrite_seen ..
  | fileRead => exact runFileRead_seen ..
  | fileCopy | fileMove => exact runTransfer_seen ..
  | copyMemory => exact congrArg _ (copyBytes_seen ..)
  | fillMemory => exact congrArg _ (fillBytes_seen ..)
  | sleep =>
    have slept := view.shows_clock.sleep (argument 0 % 2 ^ 16) world.host.clock
    dsimp only [run, View.after, World.seen]
    rw [slept]
  | uptime =>
    have time := view.shows_clock.uptime world.host.clock
    dsimp only [run, View.after, World.seen]
    rw [time]
  | _ => rfl

theorem dispatch_seen (config : Config) (number : Int) (argument : Arguments) :
    dispatch config number argument (world.seen view) =
      view.after (dispatch config number argument world) := by
  unfold dispatch
  cases ofNumber? number with
  | none => rfl
  | some service =>
    dsimp only
    rw [World.note_seen]
    exact run_seen ..

end Service

/-! ## Machines -/

namespace Machine

/-- The machine as it is seen. -/
def seen (machine : Machine κ' φ' τ') : Machine κ φ τ :=
  ⟨machine.config, machine.world.seen view, machine.registers, machine.status, machine.executed,
    machine.depth⟩

variable (machine : Machine κ' φ' τ')

theorem note_seen (level : LogLevel) (message : String) :
    (machine.seen view).note level message = (machine.note level message).seen view := by
  have noted := machine.world.note_seen view level "armlet.emulator.cpu" message
  exact congrArg (fun world : World κ φ τ ↦ { machine.seen view with world }) noted

theorem raise_seen (cause : FaultCause) :
    (machine.seen view).raise cause = (machine.raise cause).seen view :=
  note_seen view { machine with status := .faulted ⟨cause, machine.registers.pc⟩ } ..

theorem access_seen (transfer : Transfer) (address : BitVec 64) (rt : Reg) :
    (machine.seen view).access transfer address rt =
      (machine.access transfer address rt).seen view := by
  have world : (machine.seen view).world = machine.world.seen view := rfl
  cases transfer with
  | store =>
    simp only [access, world, World.write_seen]
    rfl
  | load | loadSigned64 | loadSigned32 =>
    simp only [access, world, World.read_seen, View.after]
    split <;> rfl

theorem loadStore_seen (transfer : Transfer) (address : Addressing) (rn rt : Reg) :
    (machine.seen view).loadStore transfer address rn rt =
      (machine.loadStore transfer address rn rt).seen view := by
  have based (base value : BitVec 64) :
      ((machine.seen view).access transfer base rt).setBase rn value =
        ((machine.access transfer base rt).setBase rn value).seen view :=
    congrArg (fun done : Machine κ φ τ ↦ done.setBase rn value) (machine.access_seen view ..)
  cases address with
  | scaled | unscaled | index => exact machine.access_seen view ..
  | postIndex | preIndex => exact based ..

theorem pair_seen (width : Width) (load : Bool) (mode : PairMode) (offset : BitVec 7)
    (rt2 rn rt : Reg) :
    (machine.seen view).pair width load mode offset rt2 rn rt =
      (machine.pair width load mode offset rt2 rn rt).seen view := by
  have both (transfer : Transfer) (first second : BitVec 64) :
      ((machine.seen view).access transfer first rt).access transfer second rt2 =
        ((machine.access transfer first rt).access transfer second rt2).seen view := by
    rw [access_seen, access_seen]
  have based (transfer : Transfer) (first second value : BitVec 64) :
      (((machine.seen view).access transfer first rt).access transfer second rt2).setBase rn value =
        (((machine.access transfer first rt).access transfer second rt2).setBase rn value).seen
          view :=
    congrArg (fun done : Machine κ φ τ ↦ done.setBase rn value) (both ..)
  cases mode with
  | offset | plainOffset => exact both ..
  | postIndex | preIndex => exact based ..

theorem fetch_seen : (machine.seen view).fetch = machine.fetch.mapError (seen view) := by
  have running : (machine.seen view).isRunning = machine.isRunning := rfl
  have memory : (machine.seen view).world.memory = machine.world.memory := rfl
  have registers : (machine.seen view).registers = machine.registers := rfl
  have config : (machine.seen view).config = machine.config := rfl
  have executed : (machine.seen view).executed = machine.executed := rfl
  have leave (pc : Int) : fetch.leave (machine.seen view) pc = (fetch.leave machine pc).seen view :=
    congrArg halt (machine.note_seen view ..)
  simp only [fetch, running, memory, registers, config, executed, raise_seen, leave]
  split
  · rfl
  split
  · rfl
  split
  · rfl
  split
  · split <;> rfl
  · rfl

theorem count_seen : (machine.seen view).count = machine.count.seen view := by
  have running : (machine.seen view).isRunning = machine.isRunning := rfl
  unfold count
  rw [running]
  split <;> rfl

theorem serviceCall_seen (number : BitVec 16) :
    (machine.seen view).serviceCall number = (machine.serviceCall number).seen view := by
  have registers : (machine.seen view).registers = machine.registers := rfl
  have config : (machine.seen view).config = machine.config := rfl
  have world : (machine.seen view).world = machine.world.seen view := rfl
  simp only [serviceCall, registers, config, world, Service.dispatch_seen]
  generalize Service.dispatch machine.config _ _ machine.world = answer
  obtain ⟨(none | value) | _ | cause, world⟩ := answer
  · rfl
  · rfl
  · rfl
  · exact raise_seen view { machine with world } cause

theorem execute_seen (instruction : Instruction) :
    (machine.seen view).execute instruction = (machine.execute instruction).seen view := by
  cases instruction with
  | hint | barrier | moveWide | bitfield | extract | twoSource | multiplyAdd => rfl
  | branchRegister op rn =>
    cases op with
    | br | blr => rfl
    | ret =>
      have depth : (machine.seen view).depth = machine.depth := rfl
      simp only [execute, branchRegister, depth]
      split
      · exact congrArg halt (machine.note_seen view ..)
      · rfl
  | exception op number =>
    cases op with
    | svc => exact machine.serviceCall_seen view number
    | hvc | smc => rfl
  | addSubImmediate width op setsFlags => cases setsFlags <;> rfl
  | addSubRegister width op setsFlags => cases setsFlags <;> rfl
  | logical width op => cases op <;> rfl
  | branch link => cases link <;> rfl
  | branchIf | compareBranch =>
    have registers : (machine.seen view).registers = machine.registers := rfl
    simp only [execute, registers]
    split <;> rfl
  | loadStore transfer address rn rt => exact congrArg proceed (machine.loadStore_seen view ..)
  | loadLiteral load offset rt => exact congrArg proceed (machine.access_seen view ..)
  | pair width load mode offset rt2 rn rt => exact congrArg proceed (machine.pair_seen view ..)

theorem perform_seen (word : Word) :
    (machine.seen view).perform word = (machine.perform word).seen view := by
  unfold perform
  cases decode word with
  | ok instruction =>
    dsimp only
    rw [execute_seen, count_seen]
  | error error => exact machine.raise_seen view _

/-- What a watched step does is seen as the machine does it. -/
theorem stepWatched_seen {η : Type} (hook : Hook η) (state : η) :
    (machine.seen view).stepWatched hook state =
      ((machine.stepWatched hook state).1, (machine.stepWatched hook state).2.1.seen view,
        (machine.stepWatched hook state).2.2) := by
  have registers : (machine.seen view).registers = machine.registers := rfl
  unfold stepWatched
  rw [fetch_seen, registers]
  cases machine.fetch with
  | error stopped => rfl
  | ok word =>
    dsimp only [Except.mapError]
    rw [perform_seen]
    split <;> rfl

/-- What a step does is seen as the machine does it. -/
theorem step_seen :
    (machine.seen view).step = (machine.step.1, machine.step.2.seen view) := by
  unfold step
  rw [fetch_seen]
  cases machine.fetch with
  | error stopped => rfl
  | ok word =>
    dsimp only [Except.mapError]
    rw [perform_seen]
    rfl

/-! ### Runs -/

theorem stepsFor_seen {η : Type} (hook : Hook η) (steps : Nat) (state : η) :
    stepsFor hook steps state (machine.seen view) =
      ((stepsFor hook steps state machine).1.seen view, (stepsFor hook steps state machine).2) := by
  induction steps generalizing state machine with
  | zero => rfl
  | succ steps ih =>
    simp only [stepsFor, stepWatched_seen]
    obtain ⟨_ | _, next, state⟩ := machine.stepWatched hook state
    · rfl
    · exact ih ..

/-- What a run comes to is seen as the machine comes to it. -/
theorem run_seen : (machine.seen view).run = machine.run.seen view := by
  have budget : (machine.seen view).budget = machine.budget := rfl
  unfold run runWatched
  rw [budget, stepsFor_seen]
  exact note_seen view _ ..

end Machine

end

/-! ## The log -/

section

variable {κ φ τ : Type} [Console κ] [FileStore φ] [Clock τ]

/-- Sees the machine as if its log had begun with other records. -/
def View.past (records : Array LogRecord) : View κ κ φ φ τ τ where
  console := id
  files := id
  clock := id
  log := (records ++ ·)
  shows_console := .same
  shows_files := .same
  shows_clock := .same
  shows_log := .since records

namespace Machine

/-- The machine with an empty log. -/
def silent (machine : Machine κ φ τ) : Machine κ φ τ :=
  { machine with world := { machine.world with log := #[] } }

theorem silent_seen (machine : Machine κ φ τ) :
    machine.silent.seen (.past machine.world.log) = machine := by
  show ({ machine with world := { machine.world with log := machine.world.log ++ #[] } } :
    Machine κ φ τ) = machine
  rw [Array.append_empty]

variable {first second : Machine κ φ τ} (alike : first.silent = second.silent)
include alike

/-- Machines that differ only in their logs take the same step. -/
theorem stepWatched_alike {η : Type} (hook : Hook η) (state : η) :
    (first.stepWatched hook state).1 = (second.stepWatched hook state).1 ∧
      (first.stepWatched hook state).2.1.silent = (second.stepWatched hook state).2.1.silent ∧
      (first.stepWatched hook state).2.2 = (second.stepWatched hook state).2.2 := by
  rw [← first.silent_seen, ← second.silent_seen, alike, stepWatched_seen, stepWatched_seen]
  exact ⟨rfl, rfl, rfl⟩

end Machine

end

end MiniA64
