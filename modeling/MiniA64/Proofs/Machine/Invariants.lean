import Mathlib.Data.Nat.Count
import MiniA64.Machine.Inspection
import MiniA64.Proofs.Machine.Preservation

/-!
# What is true throughout a run

However long a loaded program has run, and whatever hook has watched it, its registers hold words,
its memory has the size that the machine was made with, its depth is the number of calls less the
number of returns, and it has not executed more instructions than its ceiling allows. A machine
that has stopped stays as it is.
-/

namespace MiniA64

theorem Memory.pos_of_new {size base : Int} {memory : Memory}
    (h : Memory.new available size base = .ok memory) : 0 < size := by
  by_contra none
  rw [Memory.new, if_pos (Int.not_lt.mp none)] at h
  cases h

/-- Every register that has a name of its own holds a word. -/
theorem Registers.generalByName_bounds (registers : Registers) :
    ∀ entry ∈ registers.generalByName, 0 ≤ entry.2 ∧ entry.2 < 2 ^ 64 := by
  intro entry named
  obtain ⟨⟨name, reg⟩, -, rfl⟩ := List.mem_map.mp named
  have fits : ((registers.read reg).toNat : Int) < 2 ^ 64 := by
    exact_mod_cast (registers.read reg).isLt
  exact ⟨Int.natCast_nonneg _, fits⟩

theorem Status.fault?_isSome (status : Status) :
    status.fault?.isSome ↔ status.name = "faulted" := by
  cases status <;> simp [Status.fault?, Status.name]

namespace Machine

variable {κ φ τ η : Type}

/-! ## Single steps -/

theorem belowCeiling_of_fetch {machine : Machine κ φ τ} {word : Word}
    (fetched : machine.fetch = .ok word) : machine.executed < machine.config.maxInstructions := by
  unfold fetch at fetched
  dsimp only at fetched
  split at fetched
  · cases fetched
  split at fetched
  · cases fetched
  · exact Int.not_le.mp ‹_›

theorem fetch_of_stopped {machine : Machine κ φ τ} (stopped : machine.status ≠ .running) :
    machine.fetch = .error machine := by
  unfold fetch
  exact if_pos (by simp [isRunning, stopped])

/-- Counting changes nothing but the count. -/
theorem count_eq (machine : Machine κ φ τ) :
    ∃ executed ≤ machine.executed + 1, machine.count = { machine with executed } := by
  unfold count
  split
  · exact ⟨_, Nat.le_refl _, rfl⟩
  · exact ⟨machine.executed, Nat.le_succ _, rfl⟩

theorem depthAfter_nonneg {machine : Machine κ φ τ} (outermost : 0 ≤ machine.depth)
    (instruction : Instruction) : 0 ≤ machine.depthAfter instruction := by
  unfold depthAfter
  split
  · omega
  split <;> omega

/-- What runs of a program of some length have in common, with the calls and returns so far. -/
structure Invariant (length calls returns : Nat) (machine : Machine κ φ τ) : Prop where
  words : machine.registers.Words
  programSize : machine.world.memory.programSize = length
  outermost : 0 ≤ machine.depth
  depth : machine.depth = calls - returns

namespace Invariant

variable {length calls returns : Nat} {before after : Machine κ φ τ}

theorem keeps (invariant : before.Invariant length calls returns)
    (keeps : before.Keeps after) : after.Invariant length calls returns where
  words := keeps.words invariant.words
  programSize := keeps.memory.programSize.trans invariant.programSize
  outermost := keeps.depth.symm ▸ invariant.outermost
  depth := keeps.depth.trans invariant.depth

end Invariant

theorem size_load {machine start : Machine κ φ τ} {code : List UInt8}
    (loaded : machine.load code = .ok start) :
    start.config = machine.config ∧ start.world.memory.size = machine.world.memory.size ∧
      start.world.memory.programSize = code.length := by
  obtain ⟨memory, log, filled, rfl⟩ := ofMemory_of_load loaded
  obtain ⟨-, rfl⟩ := Memory.eq_of_load filled
  refine ⟨rfl, ?_, rfl⟩
  show (Memory.putBytes (Array.replicate machine.world.memory.size 0) 0 code).size = _
  rw [Memory.size_putBytes, Array.size_replicate]

theorem invariant_load {machine start : Machine κ φ τ} {code : List UInt8}
    (loaded : machine.load code = .ok start) : start.Invariant code.length 0 0 := by
  obtain ⟨-, -, programSize⟩ := size_load loaded
  obtain ⟨memory, log, -, rfl⟩ := ofMemory_of_load loaded
  exact ⟨Registers.words_initial _, programSize, Int.le_refl 0, rfl⟩

section

variable [Console κ] [FileStore φ] [Clock τ]

/-- The instruction that a watched step executes, if it executes one. -/
def executes (hook : Hook η) (machine : Machine κ φ τ) (state : η) : Option Instruction :=
  match machine.fetch with
  | .error _ => none
  | .ok word =>
    if (hook machine.registers.pc word state).1 then (decode word).toOption else none

/-- A watched step executes no instruction, or it executes one and counts it. -/
theorem stepWatched_cases (hook : Hook η) (state : η) (machine : Machine κ φ τ) :
    (machine.executes hook state = none ∧
        machine.Keeps (machine.stepWatched hook state).2.1) ∨
      ∃ instruction, machine.executes hook state = some instruction ∧
        machine.status = .running ∧ machine.executed < machine.config.maxInstructions ∧
        (machine.stepWatched hook state).2.1 = (machine.execute instruction).count := by
  unfold executes stepWatched
  cases fetched : machine.fetch with
  | error stopped =>
    refine .inl ⟨rfl, ?_⟩
    obtain rfl | ⟨cause, rfl⟩ | rfl := eq_of_fetch_error fetched
    · exact .refl _
    · exact .raise ..
    · exact .leave ..
  | ok word =>
    dsimp only
    cases goes : (hook machine.registers.pc word state).1 with
    | false => exact .inl ⟨rfl, .refl _⟩
    | true =>
      rw [if_pos rfl, if_pos rfl]
      unfold perform
      cases decode word with
      | error error => exact .inl ⟨rfl, .raise ..⟩
      | ok instruction =>
        exact .inr ⟨instruction, rfl, running_of_fetch fetched, belowCeiling_of_fetch fetched, rfl⟩

/-- A machine that does not run is left as it is. -/
theorem step_of_stopped {machine : Machine κ φ τ} (stopped : machine.status ≠ .running) :
    machine.step = (false, machine) := by
  rw [step, fetch_of_stopped stopped]

/-- The hook is not asked about a machine that does not run. -/
theorem stepWatched_of_stopped {machine : Machine κ φ τ} (stopped : machine.status ≠ .running)
    (hook : Hook η) (state : η) : machine.stepWatched hook state = (false, machine, state) := by
  rw [stepWatched, fetch_of_stopped stopped]

/-- A return halts where no call is outstanding, and leaves the machine running elsewhere. -/
theorem isRunning_return {machine : Machine κ φ τ} (running : machine.status = .running)
    (rn : Reg) :
    ((machine.execute (.branchRegister .ret rn)).count.isRunning = true) ↔ machine.depth ≠ 0 := by
  by_cases outermost : machine.depth = 0
  · rw [execute, branchRegister, if_pos outermost]
    simp [count, halt, isRunning, outermost]
  · rw [execute, branchRegister, if_neg outermost]
    simp [count, jump, isRunning, running, outermost]

/-- A call adds one to the depth, and a return that goes on takes one away. -/
theorem depthAfter_eq {machine : Machine κ φ τ} (running : machine.status = .running)
    (instruction : Instruction) :
    machine.depthAfter instruction = machine.depth + (if instruction.isCall then 1 else 0) -
      (if instruction.isReturn && (machine.execute instruction).count.isRunning then 1 else 0) := by
  unfold depthAfter
  by_cases returns : ∃ rn, instruction = .branchRegister .ret rn
  · obtain ⟨rn, rfl⟩ := returns
    have goes := isRunning_return running rn
    by_cases outermost : machine.depth = 0 <;>
      simp [Instruction.isCall, Instruction.isReturn, goes, outermost]
  · have stays : instruction.isReturn = false := by
      unfold Instruction.isReturn
      split
      · exact absurd ⟨_, rfl⟩ returns
      · rfl
    by_cases calls : instruction.isCall <;> simp [calls, stays]

namespace Invariant

variable {length calls returns : Nat} {before : Machine κ φ τ}

/-- An instruction is a call, a return or neither. -/
theorem execute (invariant : before.Invariant length calls returns)
    (running : before.status = .running) (instruction : Instruction) :
    (before.execute instruction).count.Invariant length
      (calls + if instruction.isCall then 1 else 0)
      (returns + if instruction.isReturn && (before.execute instruction).count.isRunning
        then 1 else 0) := by
  have kept := before.keeps_execute instruction
  obtain ⟨executed, -, counted⟩ := (before.execute instruction).count_eq
  have depth : (before.execute instruction).count.depth = before.depthAfter instruction :=
    (congrArg Machine.depth counted).trans kept.depth
  have moved := depthAfter_eq running instruction
  refine ⟨?_, ?_, ?_, ?_⟩
  · rw [counted]
    exact kept.words invariant.words
  · rw [counted]
    exact kept.memory.programSize.trans invariant.programSize
  · rw [depth]
    exact depthAfter_nonneg invariant.outermost instruction
  · rw [depth, moved, invariant.depth]
    split <;> split <;> omega

theorem stepWatched (invariant : before.Invariant length calls returns) (hook : Hook η)
    (state : η) :
    (before.stepWatched hook state).2.1.Invariant length
      (calls + if (before.executes hook state).any Instruction.isCall then 1 else 0)
      (returns + if (before.executes hook state).any Instruction.isReturn &&
        (before.stepWatched hook state).2.1.isRunning then 1 else 0) := by
  obtain ⟨none, kept⟩ | ⟨instruction, some, running, -, next⟩ :=
    stepWatched_cases hook state before
  · rw [none]
    exact invariant.keeps kept
  · rw [some, next]
    exact invariant.execute running instruction

end Invariant

/-! ## Runs -/

/-- The machine and what its hook knows after a number of steps. -/
def afterSteps (hook : Hook η) (start : Machine κ φ τ × η) (steps : Nat) : Machine κ φ τ × η :=
  (fun now : Machine κ φ τ × η ↦ (now.1.stepWatched hook now.2).2)^[steps] start

/-- The step with a number, counted from zero, executes a call. -/
def callsAt (hook : Hook η) (start : Machine κ φ τ × η) (step : Nat) : Bool :=
  let now := afterSteps hook start step
  (now.1.executes hook now.2).any Instruction.isCall

/-- The step with a number executes a return that does not halt. -/
def returnsAt (hook : Hook η) (start : Machine κ φ τ × η) (step : Nat) : Bool :=
  let now := afterSteps hook start step
  (now.1.executes hook now.2).any Instruction.isReturn &&
    (afterSteps hook start (step + 1)).1.isRunning

/-- The calls in a number of steps. -/
def calls (hook : Hook η) (start : Machine κ φ τ × η) (steps : Nat) : Nat :=
  Nat.count (callsAt hook start · = true) steps

/-- The returns in a number of steps but for those that halt. -/
def returns (hook : Hook η) (start : Machine κ φ τ × η) (steps : Nat) : Nat :=
  Nat.count (returnsAt hook start · = true) steps

theorem afterSteps_succ (hook : Hook η) (start : Machine κ φ τ × η) (steps : Nat) :
    afterSteps hook start (steps + 1) =
      ((afterSteps hook start steps).1.stepWatched hook (afterSteps hook start steps).2).2 :=
  Function.iterate_succ_apply' ..

theorem Invariant.afterSteps {length : Nat} {start : Machine κ φ τ}
    (fresh : start.Invariant length 0 0) (hook : Hook η) (state : η) (steps : Nat) :
    (afterSteps hook (start, state) steps).1.Invariant length
      (calls hook (start, state) steps) (returns hook (start, state) steps) := by
  induction steps with
  | zero => exact fresh
  | succ steps ih =>
    have next := ih.stepWatched hook (Machine.afterSteps hook (start, state) steps).2
    rw [calls, returns, Nat.count_succ, Nat.count_succ, returnsAt, afterSteps_succ]
    exact next

/--
Machines made with a configuration that have loaded programs and taken steps since. In between
their registers and the contents of their memory may have been set to anything.
-/
inductive Session (config : Config) : Machine κ φ τ → Prop
  | new {available : Int} {host : Host κ φ τ} {machine : Machine κ φ τ}
    (created : new available config host = .ok machine) :
    Session config machine
  | load {machine start : Machine κ φ τ} {code : List UInt8} (session : Session config machine)
    (loaded : machine.load code = .ok start) : Session config start
  | step {machine : Machine κ φ τ} {η : Type} (session : Session config machine) (hook : Hook η)
    (state : η) : Session config (machine.stepWatched hook state).2.1
  | set {machine : Machine κ φ τ} (session : Session config machine) (registers : Registers)
    (memory : Memory) (shape : machine.world.memory.SameShape memory) :
    Session config { machine with registers, world := { machine.world with memory } }

theorem executed_stepWatched (hook : Hook η) (state : η) (machine : Machine κ φ τ) :
    ((machine.stepWatched hook state).2.1.executed : Int) ≤
      max (machine.executed : Int) machine.config.maxInstructions := by
  obtain ⟨-, kept⟩ | ⟨instruction, -, -, below, next⟩ := stepWatched_cases hook state machine
  · rw [kept.executed]
    exact Int.le_max_left ..
  · have kept := machine.keeps_execute instruction
    obtain ⟨executed, most, counted⟩ := (machine.execute instruction).count_eq
    rw [kept.executed] at most
    change executed ≤ machine.executed + 1 at most
    rw [next, counted]
    show (executed : Int) ≤ _
    omega

theorem sameWindow_stepWatched (hook : Hook η) (state : η) (machine : Machine κ φ τ) :
    (machine.stepWatched hook state).2.1.config = machine.config ∧
      machine.world.memory.SameWindow (machine.stepWatched hook state).2.1.world.memory := by
  obtain ⟨-, kept⟩ | ⟨instruction, -, -, -, next⟩ := stepWatched_cases hook state machine
  · exact ⟨kept.config, kept.memory⟩
  · have kept := machine.keeps_execute instruction
    obtain ⟨executed, -, counted⟩ := (machine.execute instruction).count_eq
    rw [next, counted]
    exact ⟨kept.config, kept.memory⟩

/-- A machine keeps its configuration and the size of its memory. -/
theorem Session.size {config : Config} {machine : Machine κ φ τ}
    (session : Session config machine) :
    machine.config = config ∧ (machine.world.memory.size : Int) = config.memorySize := by
  induction session with
  | new created =>
    obtain ⟨memory, made, rfl⟩ := ofMemory_of_new created
    have positive := Memory.pos_of_new made
    obtain ⟨-, rfl⟩ := Memory.eq_of_new made
    refine ⟨rfl, ?_⟩
    show ((Array.replicate config.memorySize.toNat (0 : UInt8)).size : Int) = _
    rw [Array.size_replicate]
    omega
  | load session loaded ih =>
    obtain ⟨same, size, -⟩ := size_load loaded
    exact ⟨same.trans ih.1, size ▸ ih.2⟩
  | @step machine _ session hook state ih =>
    obtain ⟨same, shape⟩ := sameWindow_stepWatched hook state machine
    exact ⟨same.trans ih.1, shape.size.symm ▸ ih.2⟩
  | set session registers memory shape ih => exact ⟨ih.1, shape.size.symm ▸ ih.2⟩

/-- The ceiling bounds the instructions that a machine has executed. -/
theorem Session.executed_le {config : Config} {machine : Machine κ φ τ}
    (session : Session config machine) :
    (machine.executed : Int) ≤ max 0 config.maxInstructions := by
  induction session with
  | new created =>
    obtain ⟨memory, -, rfl⟩ := ofMemory_of_new created
    exact Int.le_max_left ..
  | load session loaded ih =>
    obtain ⟨memory, log, -, rfl⟩ := ofMemory_of_load loaded
    exact Int.le_max_left ..
  | @step machine _ session hook state ih =>
    have executed := executed_stepWatched hook state machine
    rw [session.size.1] at executed
    omega
  | set session registers memory shape ih => exact ih

theorem Session.afterSteps {config : Config} {start : Machine κ φ τ}
    (session : Session config start) (hook : Hook η) (state : η) (steps : Nat) :
    Session config (afterSteps hook (start, state) steps).1 := by
  induction steps with
  | zero => exact session
  | succ steps ih =>
    rw [afterSteps_succ]
    exact ih.step hook _

/--
What is true of a program at any time after it has been loaded, for every hook that watches it.
-/
theorem invariants_of_load {config : Config} {machine start : Machine κ φ τ} {code : List UInt8}
    (session : Session config machine) (loaded : machine.load code = .ok start) (hook : Hook η)
    (state : η) (steps : Nat) :
    let later := (afterSteps hook (start, state) steps).1
    (∀ entry ∈ later.registers.generalByName, 0 ≤ entry.2 ∧ entry.2 < 2 ^ 64) ∧
      (0 ≤ later.registers.sp ∧ later.registers.sp < 2 ^ 64) ∧
      (0 ≤ later.registers.pc ∧ later.registers.pc < 2 ^ 64) ∧
      (later.world.memory.size : Int) = config.memorySize ∧
      later.world.memory.programSize = code.length ∧
      0 ≤ later.depth ∧
      later.depth = calls hook (start, state) steps - returns hook (start, state) steps ∧
      (later.executed : Int) ≤ max 0 config.maxInstructions ∧
      (later.status.fault?.isSome ↔ later.status.name = "faulted") ∧
      (later.status ≠ .running → later.step = (false, later) ∧
        ∀ (hook : Hook η) state, later.stepWatched hook state = (false, later, state)) := by
  intro later
  have invariant := (invariant_load loaded).afterSteps hook state steps
  have session := (session.load loaded).afterSteps hook state steps
  exact ⟨Registers.generalByName_bounds _, invariant.words.sp, invariant.words.pc, session.size.2,
    invariant.programSize, invariant.outermost, invariant.depth, session.executed_le,
    Status.fault?_isSome _,
    fun stopped ↦ ⟨step_of_stopped stopped, stepWatched_of_stopped stopped⟩⟩

/-- A program that calls its last instruction returns from it once and then halts. -/
theorem invariants_of_load_call :
    let call : Word := (Instruction.branch true 2).encode
    let leave : Word := (Instruction.branchRegister .ret Reg.link).encode
    let host : Host BufferConsole MemoryStore ManualClock := ⟨.ofInput [], .empty, .startingAt 0⟩
    ∃ blank start, new 64 { memorySize := 12 } host = .ok blank ∧
      blank.load (call.toBytes ++ leave.toBytes ++ leave.toBytes) = .ok start ∧
      calls unwatched (start, ()) 3 = 1 ∧ returns unwatched (start, ()) 3 = 1 ∧
      (afterSteps unwatched (start, ()) 3).1.depth = 0 ∧
      (afterSteps unwatched (start, ()) 3).1.step =
        (false, (afterSteps unwatched (start, ()) 3).1) := by
  intro call leave host
  let blank := ofMemory { memorySize := 12 } ⟨0, Array.replicate 12 0, 0⟩ host #[]
  have created : new 64 { memorySize := 12 } host = .ok blank := rfl
  obtain ⟨start, begun⟩ : ∃ start, start =
      (blank.load (call.toBytes ++ leave.toBytes ++ leave.toBytes)).toOption.getD blank := ⟨_, rfl⟩
  have loaded : blank.load (call.toBytes ++ leave.toBytes ++ leave.toBytes) = .ok start := by
    rw [begun]
    rfl
  have called : calls unwatched (start, ()) 3 = 1 := by
    rw [begun]
    decide +kernel
  have returned : returns unwatched (start, ()) 3 = 1 := by
    rw [begun]
    decide +kernel
  have halted : (afterSteps unwatched (start, ()) 3).1.status = .halted := by
    rw [begun]
    decide +kernel
  obtain ⟨-, -, -, -, -, -, depth, -, -, stays⟩ :=
    invariants_of_load (.new created) loaded unwatched () 3
  rw [called, returned] at depth
  exact ⟨blank, start, created, loaded, called, returned, depth,
    (stays (by rw [halted]; decide)).1⟩

end

end Machine

end MiniA64
