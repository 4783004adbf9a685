import MiniA64.Machine.Loader
import MiniA64.Proofs.Machine.Resuming

/-!
# Loading starts afresh

Whatever has been done with a machine, its configuration and the place and size of its memory are
those with which it was made. Loading a program takes nothing else from the machine but the host and
the log, so it leaves the machine as a new one that loads the same program, and steps cannot tell
the two apart. A program that does not fit is refused before anything is changed.
-/

namespace MiniA64

variable {κ φ τ : Type}

/-! ## The loader -/

/-- What a program leaves of a memory does not depend on what the memory has held. -/
theorem Memory.load_congr {first second : Memory} (base : first.base = second.base)
    (size : first.size = second.size) (code : List UInt8) : first.load code = second.load code := by
  obtain ⟨base₁, bytes₁, length₁⟩ := first
  obtain ⟨base₂, bytes₂, length₂⟩ := second
  cases base
  simp only [load, size]

/-- What follows the look at the size happens where the program fits. -/
theorem Loader.run_demandRoom_bind (code : List UInt8) (machine : Machine κ φ τ)
    (next : Unit → Load κ φ τ Unit) :
    (ExceptT.run (demandRoom code >>= next)).run machine =
      if machine.world.memory.size < code.length then
        (.error (.programTooLarge code.length machine.world.memory.size), machine)
      else (ExceptT.run (next ())).run machine := by
  let room : Load κ φ τ Unit :=
    if machine.world.memory.size < code.length then
      throw (.programTooLarge code.length machine.world.memory.size)
    else pure ()
  show (ExceptT.run (room >>= next)).run machine = _
  dsimp only [room]
  split <;> rfl

namespace Machine

/-- The acts of the loader come to what loading is, and to nothing for a program that is refused. -/
theorem loadInOrder_eq (code : List UInt8) (machine : Machine κ φ τ) :
    machine.loadInOrder code =
      match machine.load code with
      | .ok start => (.ok (), start)
      | .error error => (.error error, machine) := by
  unfold loadInOrder Loader.load Loader.fillMemory
  simp only [bind_assoc]
  rw [Loader.run_demandRoom_bind]
  unfold load Memory.load
  split
  · rfl
  · have records (log : Array LogRecord) (first second : LogRecord) :
        log ++ #[first, second] = (log.push first).push second := Array.ext' (by simp)
    dsimp only [Except.map, ofMemory]
    rw [records]
    rfl

/-! ## What is never changed -/

/-- The configuration and the place of the memory are those of a new machine. -/
structure Made (available : Int) (config : Config) (machine : Machine κ φ τ) : Prop where
  same : machine.config = config
  memory : ∃ empty, Memory.new available config.memorySize config.addressBase = .ok empty ∧
    machine.world.memory.base = empty.base ∧ machine.world.memory.size = empty.size

namespace Made

variable {available : Int} {config : Config} {before after : Machine κ φ τ}

theorem of_new {host : Host κ φ τ} (created : Machine.new available config host = .ok after) :
    Made available config after := by
  obtain ⟨empty, made, rfl⟩ := ofMemory_of_new created
  exact ⟨rfl, empty, made, rfl, rfl⟩

theorem keep (made : Made available config before) (same : after.config = before.config)
    (base : after.world.memory.base = before.world.memory.base)
    (size : after.world.memory.size = before.world.memory.size) : Made available config after := by
  obtain ⟨empty, created, baseMade, sizeMade⟩ := made.memory
  exact ⟨same.trans made.same, empty, created, base.trans baseMade, size.trans sizeMade⟩

theorem keepWindow (made : Made available config before) (same : after.config = before.config)
    (window : before.world.memory.SameWindow after.world.memory) : Made available config after :=
  made.keep same window.base window.size

theorem loadInOrder (made : Made available config before) (code : List UInt8) :
    Made available config (before.loadInOrder code).2 := by
  rw [loadInOrder_eq]
  cases loaded : before.load code with
  | error error => exact made
  | ok start =>
    obtain ⟨memory, log, filled, rfl⟩ := ofMemory_of_load loaded
    obtain ⟨-, rfl⟩ := Memory.eq_of_load filled
    refine made.keep rfl rfl ?_
    show (Memory.putBytes (Array.replicate before.world.memory.size 0) 0 code).size = _
    rw [Memory.size_putBytes, Array.size_replicate]

section

variable [Console κ] [FileStore φ] [Clock τ] {η : Type}

theorem stepWatched (made : Made available config before) (hook : Hook η) (state : η) :
    Made available config (before.stepWatched hook state).2.1 :=
  have kept := sameWindow_stepWatched hook state before
  made.keepWindow kept.1 kept.2

theorem stepsFor (made : Made available config before) (hook : Hook η) (steps : Nat) (state : η) :
    Made available config (Machine.stepsFor hook steps state before).1 := by
  induction steps generalizing before state with
  | zero => exact made
  | succ steps ih =>
    have stepped := made.stepWatched hook state
    unfold Machine.stepsFor
    generalize before.stepWatched hook state = answer at stepped
    obtain ⟨_ | _, next, state⟩ := answer
    · exact stepped
    · exact ih stepped state

theorem runWatched (made : Made available config before) (hook : Hook η) (state : η) :
    Made available config (before.runWatched hook state).1 :=
  (made.stepsFor hook (before.budget + 1) state).keep rfl rfl rfl

end

theorem flush [Console κ] (made : Made available config before) :
    Made available config before.flush.2 := by
  unfold Machine.flush
  split
  · exact made.keep rfl rfl rfl
  · exact made

end Made

variable [Console κ] [FileStore φ] [Clock τ]

/--
A machine that was made with a configuration, after loads that may be refused, steps and runs that
a hook may stop, resets of the processor, writes to memory, to the registers and to the devices.
-/
inductive History (available : Int) (config : Config) : Machine κ φ τ → Prop
  | new {host : Host κ φ τ} {machine : Machine κ φ τ}
    (created : new available config host = .ok machine) : History available config machine
  | load {machine : Machine κ φ τ} (history : History available config machine)
    (code : List UInt8) : History available config (machine.loadInOrder code).2
  | step {machine : Machine κ φ τ} {η : Type} (history : History available config machine)
    (hook : Hook η) (state : η) : History available config (machine.stepWatched hook state).2.1
  | run {machine : Machine κ φ τ} {η : Type} (history : History available config machine)
    (hook : Hook η) (state : η) : History available config (machine.runWatched hook state).1
  | flush {machine : Machine κ φ τ} (history : History available config machine) :
    History available config machine.flush.2
  | reset {machine : Machine κ φ τ} (history : History available config machine) :
    History available config machine.reset
  | write {machine : Machine κ φ τ} (history : History available config machine) (address : Int)
    (data : List UInt8) :
    History available config { machine with world := machine.world.write address data }
  | set {machine : Machine κ φ τ} (history : History available config machine)
    (registers : Registers) (host : Host κ φ τ) :
    History available config { machine with registers, world := { machine.world with host } }

theorem History.made {available : Int} {config : Config} {machine : Machine κ φ τ}
    (history : History available config machine) : Made available config machine := by
  induction history with
  | new created => exact .of_new created
  | load history code ih => exact ih.loadInOrder code
  | step history hook state ih => exact ih.stepWatched hook state
  | run history hook state ih => exact ih.runWatched hook state
  | flush history ih => exact ih.flush
  | write history address data ih => exact ih.keepWindow rfl (World.Accessed.write ..).memory
  | reset history ih => exact ih.keep rfl rfl rfl
  | set history registers host ih => exact ih.keep rfl rfl rfl

/-! ## Steps after a load -/

/-- A hook with the state in which it begins. -/
structure Watcher where
  η : Type
  hook : Hook η
  state : η

/-- Steps that watchers may prevent, with the answer of each. -/
def stepsWith : List Watcher → Machine κ φ τ → List Bool × Machine κ φ τ
  | [], machine => ([], machine)
  | watcher :: watchers, machine =>
    let step := machine.stepWatched watcher.hook watcher.state
    let rest := stepsWith watchers step.2.1
    (step.1 :: rest.1, rest.2)

theorem stepsWith_alike {first second : Machine κ φ τ} (alike : first.silent = second.silent)
    (watchers : List Watcher) :
    (first.stepsWith watchers).1 = (second.stepsWith watchers).1 ∧
      (first.stepsWith watchers).2.silent = (second.stepsWith watchers).2.silent := by
  induction watchers generalizing first second with
  | nil => exact ⟨rfl, alike⟩
  | cons watcher watchers ih =>
    obtain ⟨goes, next, -⟩ := stepWatched_alike alike watcher.hook watcher.state
    obtain ⟨answers, last⟩ := ih next
    exact ⟨congrArg₂ List.cons goes answers, last⟩

/-- The machine with other devices. -/
def withHost (machine : Machine κ φ τ) (host : Host κ φ τ) : Machine κ φ τ :=
  { machine with world := { machine.world with host } }

/--
After any history, a program that fits is loaded as into a new machine: but for the devices and the
log both are the same, and with the devices of the one the other answers every step alike. A program
that does not fit is refused and changes nothing.
-/
theorem load_afresh {available : Int} {config : Config} {machine : Machine κ φ τ}
    (history : History available config machine) (code : List UInt8) (host : Host κ φ τ) :
    ∃ blank, new available config host = .ok blank ∧
      (code.length ≤ config.memorySize → ∃ start fresh,
        machine.loadInOrder code = (.ok (), start) ∧ blank.loadInOrder code = (.ok (), fresh) ∧
          start.world.host = machine.world.host ∧ fresh.world.host = host ∧
          start.silent = (fresh.withHost machine.world.host).silent ∧
          ∀ watchers,
            (start.stepsWith watchers).1 =
                ((fresh.withHost machine.world.host).stepsWith watchers).1 ∧
              (start.stepsWith watchers).2.silent =
                ((fresh.withHost machine.world.host).stepsWith watchers).2.silent) ∧
      (config.memorySize < code.length →
        machine.loadInOrder code =
          (.error (.programTooLarge code.length config.memorySize.toNat), machine)) := by
  obtain ⟨same, empty, created, base, size⟩ := history.made
  have positive := Memory.pos_of_new created
  have capacity : empty.size = config.memorySize.toNat := by
    obtain ⟨-, rfl⟩ := Memory.eq_of_new created
    exact Array.size_replicate
  have filled : machine.world.memory.load code = empty.load code := Memory.load_congr base size code
  have blank : new available config host = .ok (ofMemory config empty host #[]) := by
    rw [new, created]
    rfl
  refine ⟨_, blank, fun fits ↦ ?_, fun long ↦ ?_⟩
  · obtain ⟨memory, loaded⟩ : ∃ memory, empty.load code = .ok memory := ⟨_, if_neg (by omega)⟩
    obtain ⟨records, start⟩ :
        ∃ log, machine.load code = .ok (ofMemory config memory machine.world.host log) := by
      rw [load, filled, loaded, same]
      exact ⟨_, rfl⟩
    obtain ⟨others, fresh⟩ : ∃ log, (ofMemory config empty host #[]).load code =
        .ok (ofMemory config memory host log) := by
      unfold load ofMemory
      dsimp only
      rw [loaded]
      exact ⟨_, rfl⟩
    have alike : (ofMemory config memory machine.world.host records).silent =
        ((ofMemory config memory host others).withHost machine.world.host).silent := rfl
    refine ⟨ofMemory config memory machine.world.host records, ofMemory config memory host others,
      ?_, ?_, rfl, rfl, alike, stepsWith_alike alike⟩
    · rw [loadInOrder_eq, start]
    · rw [loadInOrder_eq, fresh]
  · have refused : machine.load code =
        .error (.programTooLarge code.length config.memorySize.toNat) := by
      rw [load, filled, Memory.load, if_pos (by omega), capacity]
      rfl
    rw [loadInOrder_eq, refused]

/-- A machine that has halted and been written to is loaded as a new one, and refuses nine bytes. -/
theorem load_afresh_halted :
    let config : Config := { memorySize := 8 }
    let halt : Word := (Instruction.exception .svc 0x1ff).encode
    let host : Host BufferConsole MemoryStore ManualClock := ⟨.ofInput [], .empty, .startingAt 0⟩
    let blank := ofMemory config ⟨0, Array.replicate 8 0, 0⟩ host #[]
    let ran := ((blank.loadInOrder halt.toBytes).2.runWatched unwatched ()).1
    let used := { ran with world := ran.world.write 4 [1] }
    used.status = .halted ∧ used.world.memory.read 4 1 = some [1] ∧ History 64 config used ∧
      (∃ start fresh, used.loadInOrder halt.toBytes = (.ok (), start) ∧
        blank.loadInOrder halt.toBytes = (.ok (), fresh) ∧
        start.silent = (fresh.withHost used.world.host).silent) ∧
      used.loadInOrder (List.replicate 9 0) = (.error (.programTooLarge 9 8), used) := by
  intro config halt host blank ran used
  have created : new 64 config host = .ok blank := rfl
  have history : History 64 config used :=
    (((History.new created).load _).run unwatched ()).write 4 [1]
  refine ⟨by decide +kernel, by decide +kernel, history, ?_, ?_⟩
  · obtain ⟨made, same, loads, -⟩ := load_afresh history halt.toBytes host
    cases created.symm.trans same
    obtain ⟨start, fresh, loaded, again, -, -, alike, -⟩ := loads (by decide)
    exact ⟨start, fresh, loaded, again, alike⟩
  · obtain ⟨-, -, -, refuses⟩ := load_afresh history (List.replicate 9 0) host
    exact refuses (by decide)

end Machine

end MiniA64
