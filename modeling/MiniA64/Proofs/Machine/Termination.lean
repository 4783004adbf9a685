import MiniA64.Proofs.Machine.Invariants
import MiniA64.Proofs.Machine.Returning

/-!
# Runs that end

A run takes one step more than there are instructions below the ceiling, or fewer. It ends halted
or faulted, and it ends at the ceiling exactly if a step found the machine running there: nothing
that an instruction does raises that fault. Attempted with rounds enough for its loops, it does not
escape.
-/

namespace MiniA64

variable {κ φ τ : Type}

/-! ## Causes of faults -/

/-- The fault that ends a run at its ceiling. -/
def FaultCause.isLimit : FaultCause → Bool
  | instructionLimit _ => true
  | _ => false

/-- The faults that a failing console causes. -/
def FaultCause.isConsole : FaultCause → Bool
  | consoleWrite _ | consoleRead _ => true
  | _ => false

theorem FaultCause.isLimit_of_isConsole {cause : FaultCause} (console : cause.isConsole = true) :
    cause.isLimit = false := by
  cases cause with
  | consoleWrite | consoleRead => rfl
  | _ => cases console

section

variable [Console κ]

theorem World.cause_print {world : World κ φ τ} {data : List UInt8} {cause : FaultCause}
    (failed : (world.print data).1 = .error cause) : cause.isConsole = true := by
  unfold print at failed
  dsimp only at failed
  split at failed
  · cases failed
  · cases failed
    rfl

theorem World.cause_input {world : World κ φ τ} {cause : FaultCause}
    (failed : world.input.1 = .error cause) : cause.isConsole = true := by
  unfold input at failed
  dsimp only at failed
  split at failed
  · cases failed
  · cases failed
    rfl

namespace Service

theorem cause_say {world : World κ φ τ} {data : List UInt8} {cause : FaultCause}
    (faults : (say world data).1 = .fault cause) : cause.isConsole = true := by
  unfold say ofAnswer at faults
  dsimp only at faults
  split at faults
  · cases faults
  · rename_i failed
    cases faults
    exact World.cause_print failed

theorem cause_readLine {buffer limit : Int} {length : Nat} {world : World κ φ τ}
    {cause : FaultCause} (failed : (readLine buffer limit length world).1 = .error cause) :
    cause.isConsole = true := by
  fun_induction readLine buffer limit length world with
  | case1 length world short other answer =>
    cases failed
    exact World.cause_input answer
  | case3 length world short byte answer ends echoed =>
    cases answered : echoed.1 with
    | ok _ =>
      rw [answered] at failed
      cases failed
    | error other =>
      rw [answered] at failed
      cases failed
      exact World.cause_print answered
  | case4 world byte answer goes erases short ih => exact ih failed
  | case5 length world short byte answer goes erases some other echoed =>
    cases failed
    exact World.cause_print echoed
  | case6 length world short byte answer goes erases some _ echoed ih => exact ih failed
  | case7 length world short byte answer goes stays other echoed =>
    cases failed
    exact World.cause_print echoed
  | case8 length world short byte answer goes stays _ echoed ih => exact ih failed
  | _ => cases failed

theorem cause_run [FileStore φ] [Clock τ] (config : Config) (service : Service)
    (argument : Arguments) {world : World κ φ τ} {cause : FaultCause}
    (faults : (run config service argument world).1 = .fault cause) : cause.isConsole = true := by
  cases service with
  | printString | printChar | printNumber | printHex => exact cause_say faults
  | inputChar =>
    unfold run at faults
    dsimp only at faults
    split at faults
    · cases faults
    · rename_i failed
      cases faults
      exact World.cause_input (congrArg Prod.fst failed)
  | inputLine =>
    unfold run runInputLine at faults
    dsimp only at faults
    split at faults
    · rename_i failed
      cases faults
      exact cause_readLine failed
    · cases faults
  | fileRead =>
    unfold run runFileRead at faults
    dsimp only at faults
    split at faults
    · cases faults
    split at faults <;> cases faults
  | _ => cases faults

theorem cause_dispatch [FileStore φ] [Clock τ] {config : Config} {number : Int}
    {argument : Arguments} {world : World κ φ τ} {cause : FaultCause}
    (faults : (dispatch config number argument world).1 = .fault cause) :
    cause.isLimit = false := by
  unfold dispatch at faults
  split at faults
  · cases faults
    rfl
  · exact FaultCause.isLimit_of_isConsole (cause_run config _ argument faults)

end Service

end

namespace Machine

/-! ## The status after an instruction -/

/-- The run has ended at its ceiling. -/
def LimitReached (machine : Machine κ φ τ) : Prop :=
  ∃ limit pc, machine.status = .faulted ⟨.instructionLimit limit, pc⟩

theorem limitReached_raise {machine : Machine κ φ τ} {cause : FaultCause} :
    (machine.raise cause).LimitReached ↔ cause.isLimit = true := by
  constructor
  · rintro ⟨limit, pc, status⟩
    cases status
    rfl
  · intro limited
    cases cause with
    | instructionLimit limit => exact ⟨limit, _, rfl⟩
    | _ => cases limited

theorem not_limitReached {machine : Machine κ φ τ}
    (going : machine.status = .running ∨ machine.status = .halted) : ¬machine.LimitReached := by
  rintro ⟨limit, pc, status⟩
  rw [status] at going
  obtain going | going := going <;> cases going

theorem limitReached_count (machine : Machine κ φ τ) :
    machine.count.LimitReached ↔ machine.LimitReached := by
  unfold count
  split <;> rfl

variable [Console κ] [FileStore φ] [Clock τ]

theorem not_limitReached_serviceCall {machine : Machine κ φ τ}
    (running : machine.status = .running) (number : BitVec 16) :
    ¬(machine.serviceCall number).LimitReached := by
  obtain ⟨argument, result, world, dispatched, done⟩ := machine.serviceCall_cases number
  rw [done]
  obtain (none | value) | _ | cause := result
  · exact not_limitReached (.inl running)
  · exact not_limitReached (.inl running)
  · exact not_limitReached (.inr rfl)
  · have other := Service.cause_dispatch (congrArg Prod.fst dispatched)
    exact fun limited ↦ absurd (limitReached_raise.mp limited) (by simp [other])

/-- All but a supervisor call leave the machine running, or halt it. -/
theorem status_execute (machine : Machine κ φ τ) {instruction : Instruction}
    (quiet : ∀ number, instruction ≠ .exception .svc number) :
    (machine.execute instruction).status = machine.status ∨
      (machine.execute instruction).status = .halted := by
  obtain ⟨after, confined, done | halted⟩ := machine.confined_execute quiet
  · exact .inl (done ▸ confined.status)
  · exact .inr (halted ▸ rfl)

theorem not_limitReached_execute {machine : Machine κ φ τ} (running : machine.status = .running)
    (instruction : Instruction) : ¬(machine.execute instruction).LimitReached := by
  by_cases call : ∃ number, instruction = .exception .svc number
  · obtain ⟨number, rfl⟩ := call
    exact not_limitReached_serviceCall running number
  · have status := machine.status_execute (not_exists.mp call)
    rw [running] at status
    exact not_limitReached status

/-! ## Steps -/

/-- A step answers whether it leaves the machine running. -/
theorem step_fst (machine : Machine κ φ τ) : machine.step.1 = machine.step.2.isRunning := by
  unfold step
  cases fetched : machine.fetch with
  | ok word => rfl
  | error stopped =>
    unfold fetch at fetched
    dsimp only at fetched
    split at fetched
    · rename_i ended
      cases fetched
      exact (Bool.not_eq_true' _ ▸ ended).symm
    split at fetched
    · cases fetched
      rfl
    split at fetched
    · cases fetched
      rfl
    split at fetched
    · split at fetched <;> cases fetched
      rfl
    · cases fetched
      rfl

theorem executed_perform {machine : Machine κ φ τ} {word : Word}
    (runs : (machine.perform word).isRunning = true) :
    (machine.perform word).executed = machine.executed + 1 := by
  unfold perform at runs ⊢
  cases decoded : decode word with
  | error error =>
    rw [decoded] at runs
    cases runs
  | ok instruction =>
    rw [decoded] at runs
    have kept := machine.keeps_execute instruction
    by_cases goes : (machine.execute instruction).isRunning = true
    · show (machine.execute instruction).count.executed = _
      rw [count, if_pos goes]
      exact congrArg (· + 1) kept.executed
    · change (machine.execute instruction).count.isRunning = true at runs
      rw [count, if_neg goes] at runs
      exact absurd runs goes

/-- A step that goes on counts one instruction below the ceiling. -/
theorem step_goes {machine : Machine κ φ τ} (goes : machine.step.1 = true) :
    machine.executed < machine.config.maxInstructions ∧ machine.step.2.config = machine.config ∧
      machine.step.2.executed = machine.executed + 1 := by
  cases fetched : machine.fetch with
  | error stopped =>
    rw [step, fetched] at goes
    cases goes
  | ok word =>
    refine ⟨belowCeiling_of_fetch fetched, machine.config_step, ?_⟩
    rw [step, fetched] at goes ⊢
    exact executed_perform goes

/-- Only a machine that runs is left running by a step. -/
theorem running_of_goes {machine : Machine κ φ τ} (goes : machine.step.1 = true) :
    machine.status = .running := by
  by_contra stopped
  rw [step_of_stopped stopped] at goes
  cases goes

/-- A step of a running machine ends at the ceiling if the ceiling has been reached before. -/
theorem limitReached_step {machine : Machine κ φ τ} (running : machine.status = .running) :
    machine.step.2.LimitReached ↔ machine.config.maxInstructions ≤ machine.executed := by
  have going : ¬(!machine.isRunning) = true := by simp [isRunning, running]
  unfold step
  cases fetched : machine.fetch with
  | ok word =>
    have below := Int.not_le.mpr (belowCeiling_of_fetch fetched)
    refine iff_of_false ?_ below
    show ¬(machine.perform word).LimitReached
    unfold perform
    cases decode word with
    | ok instruction =>
      rw [limitReached_count]
      exact not_limitReached_execute running instruction
    | error error =>
      rw [limitReached_raise]
      cases error <;> exact Bool.false_ne_true
  | error stopped =>
    show stopped.LimitReached ↔ _
    unfold fetch at fetched
    dsimp only at fetched
    rw [if_neg going] at fetched
    split at fetched
    · rename_i reached
      cases fetched
      exact iff_of_true (limitReached_raise.mpr rfl) reached
    · rename_i below
      refine iff_of_false ?_ below
      split at fetched
      · cases fetched
        exact fun limited ↦ absurd (limitReached_raise.mp limited) (by decide)
      split at fetched
      · split at fetched <;> cases fetched
        exact not_limitReached (.inr rfl)
      · cases fetched
        exact not_limitReached (.inr rfl)

theorem stepWatched_unwatched (machine : Machine κ φ τ) :
    machine.stepWatched unwatched () = (machine.step.1, machine.step.2, ()) := by
  unfold stepWatched step
  cases machine.fetch <;> rfl

/-- A watched step does not go on and leaves the machine where the hook prevents it, and else it is
the step. -/
theorem stepWatched_prevented_or {η : Type} (hook : Hook η) (state : η) (machine : Machine κ φ τ) :
    ((machine.stepWatched hook state).1 = false ∧
      (machine.stepWatched hook state).2.1 = machine) ∨
    ((machine.stepWatched hook state).1 = machine.step.1 ∧
      (machine.stepWatched hook state).2.1 = machine.step.2) := by
  unfold stepWatched step
  cases machine.fetch with
  | error stopped => exact .inr ⟨rfl, rfl⟩
  | ok word =>
    dsimp only
    split
    · exact .inr ⟨rfl, rfl⟩
    · exact .inl ⟨rfl, rfl⟩

theorem stepWatched_eq {η : Type} (hook : Hook η) (state : η) (machine : Machine κ φ τ) :
    (machine.stepWatched hook state).2.1 = machine ∨
      (machine.stepWatched hook state).2.1 = machine.step.2 :=
  (stepWatched_prevented_or hook state machine).imp And.right And.right

/-! ## Runs -/

/-- A run from a machine: the machines on which it calls for a step, and the one it ends with. -/
inductive Runs : Machine κ φ τ → List (Machine κ φ τ) → Machine κ φ τ → Prop
  | stop {machine : Machine κ φ τ} (stops : machine.step.1 = false) :
    Runs machine [machine] machine.step.2
  | next {machine last : Machine κ φ τ} {entered : List (Machine κ φ τ)}
    (goes : machine.step.1 = true) (runs : Runs machine.step.2 entered last) :
    Runs machine (machine :: entered) last

theorem budget_step {machine : Machine κ φ τ} (goes : machine.step.1 = true) :
    machine.step.2.budget < machine.budget := by
  obtain ⟨below, config, executed⟩ := step_goes goes
  unfold budget
  rw [config, executed]
  omega

/-- Instructions below the ceiling get fewer, so every run ends. -/
theorem exists_runs (machine : Machine κ φ τ) : ∃ entered last, Runs machine entered last := by
  cases goes : machine.step.1 with
  | false => exact ⟨_, _, .stop goes⟩
  | true =>
    obtain ⟨entered, last, runs⟩ := exists_runs machine.step.2
    exact ⟨_, last, .next goes runs⟩
termination_by machine.budget
decreasing_by exact budget_step goes

namespace Runs

variable {machine last : Machine κ φ τ} {entered : List (Machine κ φ τ)}

theorem length_le (runs : Runs machine entered last) :
    (entered.length : Int) ≤ max 0 (machine.config.maxInstructions - machine.executed) + 1 := by
  induction runs with
  | stop stops =>
    show (1 : Int) ≤ _
    omega
  | next goes runs ih =>
    obtain ⟨below, config, executed⟩ := step_goes goes
    rw [config, executed] at ih
    rw [List.length_cons]
    omega

/-- Machines on which a run calls for a step have the configuration with which it starts. -/
theorem config (runs : Runs machine entered last) :
    ∀ now ∈ entered, now.config = machine.config := by
  induction runs with
  | stop stops => simp
  | next goes runs ih =>
    intro now met
    obtain rfl | met := List.mem_cons.mp met
    · rfl
    · exact (ih now met).trans (config_step _)

theorem ended (runs : Runs machine entered last) : last.isRunning = false := by
  induction runs with
  | stop stops => exact (step_fst _).symm.trans stops
  | next goes runs ih => exact ih

theorem status (runs : Runs machine entered last) :
    last.status = .halted ∨ ∃ fault, last.status = .faulted fault := by
  have ended := runs.ended
  cases status : last.status with
  | running => simp [isRunning, status] at ended
  | halted => exact .inl rfl
  | faulted fault => exact .inr ⟨fault, rfl⟩

theorem stepsFor_eq (runs : Runs machine entered last) {steps : Nat}
    (enough : entered.length ≤ steps) : stepsFor unwatched steps () machine = (last, ()) := by
  induction runs generalizing steps with
  | stop stops =>
    obtain ⟨steps, rfl⟩ := Nat.exists_eq_add_one.mpr enough
    rw [stepsFor, stepWatched_unwatched, stops]
  | next goes runs ih =>
    obtain ⟨steps, rfl⟩ := Nat.exists_eq_add_one.mpr (Nat.zero_lt_of_lt enough)
    rw [stepsFor, stepWatched_unwatched, goes]
    exact ih (Nat.le_of_succ_le_succ enough)

theorem run_eq (runs : Runs machine entered last) : machine.run = last.noteEnd := by
  have length := runs.length_le
  have enough : entered.length ≤ machine.budget + 1 := by
    unfold budget
    omega
  rw [run, runWatched, runs.stepsFor_eq enough]

/-- A run ends at the ceiling if it is begun there, or if a step has found the machine running
there. -/
theorem limitReached (runs : Runs machine entered last) :
    last.LimitReached ↔ machine.LimitReached ∨
      ∃ now ∈ entered, now.status = .running ∧ now.config.maxInstructions ≤ now.executed := by
  induction runs with
  | @stop machine stops =>
    by_cases running : machine.status = .running
    · rw [limitReached_step running, or_iff_right (not_limitReached (.inl running))]
      simp [running]
    · rw [step_of_stopped running]
      simp [running]
  | @next machine last entered goes runs ih =>
    obtain ⟨below, -, -⟩ := step_goes goes
    have later : machine.step.2.status = .running :=
      of_decide_eq_true ((step_fst machine).symm.trans goes)
    rw [ih, or_iff_right (not_limitReached (.inl later)),
      or_iff_right (not_limitReached (.inl (running_of_goes goes))), List.exists_mem_cons_iff]
    exact (or_iff_right fun now ↦ absurd now.2 (Int.not_le.mpr below)).symm

end Runs

/-! ## Attempted runs -/

namespace Session

variable {config : Config} {machine : Machine κ φ τ}

theorem sound (session : Session config machine) (room : config.HasRoom) :
    machine.world.screen.Sound := by
  induction session with
  | new created =>
    obtain ⟨memory, -, rfl⟩ := ofMemory_of_new created
    exact Framebuffer.sound_new room
  | load session loaded ih =>
    obtain ⟨memory, log, -, rfl⟩ := ofMemory_of_load loaded
    exact Framebuffer.sound_new (session.size.1 ▸ room)
  | @step machine _ session hook state ih =>
    obtain same | stepped := stepWatched_eq hook state machine
    · rw [same]
      exact ih
    · rw [stepped]
      exact sound_step ih
  | set session registers memory shape ih => exact ih

theorem next (session : Session config machine) : Session config machine.step.2 := by
  have stepped := session.step unwatched ()
  rw [stepWatched_unwatched] at stepped
  exact stepped

theorem printable (session : Session config machine)
    (printable : Text.PrintableNumber config.maxInstructions) :
    Text.PrintableNumber machine.executed := by
  have executed := session.executed_le
  unfold Text.PrintableNumber at printable ⊢
  omega

end Session

/-- Attempted with rounds enough, a run takes the steps of the run. -/
theorem Runs.attemptSteps_eq {config : Config} {machine last : Machine κ φ τ}
    {entered : List (Machine κ φ τ)} (runs : Runs machine entered last)
    (session : Session config machine) (room : config.HasRoom)
    (printable : Text.PrintableNumber config.maxInstructions) :
    ∃ enough, ∀ rounds calls, enough ≤ rounds → entered.length ≤ calls →
      machine.attemptSteps rounds calls = (.ok (), last) := by
  induction runs with
  | @stop machine stops =>
    refine ⟨machine.rounds, fun rounds calls many length ↦ ?_⟩
    obtain ⟨calls, rfl⟩ := Nat.exists_eq_add_one.mpr length
    have ends : machine.step = (false, machine.step.2) := Prod.ext stops rfl
    rw [attemptSteps, attempt_eq (session.sound room) (session.size.1 ▸ printable) many, ends]
  | @next machine last entered goes runs ih =>
    obtain ⟨enough, later⟩ := ih session.next
    refine ⟨max machine.rounds enough, fun rounds calls many length ↦ ?_⟩
    obtain ⟨calls, rfl⟩ := Nat.exists_eq_add_one.mpr (Nat.zero_lt_of_lt length)
    have on : machine.step = (true, machine.step.2) := Prod.ext goes rfl
    rw [attemptSteps, attempt_eq (session.sound room) (session.size.1 ▸ printable) (by omega), on]
    exact later rounds calls (by omega) (Nat.le_of_succ_le_succ length)

theorem Runs.session {config : Config} {machine last : Machine κ φ τ}
    {entered : List (Machine κ φ τ)} (runs : Runs machine entered last)
    (session : Session config machine) : Session config last := by
  induction runs with
  | stop stops => exact session.next
  | next goes runs ih => exact ih session.next

/-- Attempted with rounds and calls enough, a run ends as the run does. -/
theorem Runs.attemptRun_eq {config : Config} {machine last : Machine κ φ τ}
    {entered : List (Machine κ φ τ)} (runs : Runs machine entered last)
    (session : Session config machine) (room : config.HasRoom)
    (printable : Text.PrintableNumber config.maxInstructions) :
    ∃ enough, ∀ rounds calls, enough ≤ rounds → entered.length ≤ calls →
      machine.attemptRun rounds calls = (.ok (), last.noteEnd) := by
  obtain ⟨enough, attempted⟩ := runs.attemptSteps_eq session room printable
  have counted : Attempt.print last.executed = .ok () :=
    if_pos ((runs.session session).printable printable)
  refine ⟨enough, fun rounds calls many length ↦ ?_⟩
  unfold attemptRun
  dsimp only
  rw [attempted rounds calls many length]
  dsimp only
  rw [Attempt.bind_eq rfl, counted]

/--
A run ends, halted or faulted, after one step more than the instructions left below the ceiling or
fewer, and attempting it does the same. It ends at the ceiling exactly if it is begun there, or if
some step finds the machine running there.
-/
theorem run_ends {config : Config} {machine : Machine κ φ τ} (session : Session config machine)
    (room : config.HasRoom) (printable : Text.PrintableNumber config.maxInstructions) :
    ∃ entered last, Runs machine entered last ∧
      (entered.length : Int) ≤ max 0 (config.maxInstructions - machine.executed) + 1 ∧
      (∃ enough, ∀ rounds calls, enough ≤ rounds → entered.length ≤ calls →
        machine.attemptRun rounds calls = (.ok (), last.noteEnd)) ∧
      machine.run = last.noteEnd ∧
      (last.status = .halted ∨ ∃ fault, last.status = .faulted fault) ∧
      (last.LimitReached ↔ machine.LimitReached ∨
        ∃ now ∈ entered, now.status = .running ∧ config.maxInstructions ≤ now.executed) := by
  obtain ⟨entered, last, runs⟩ := exists_runs machine
  have made : machine.config = config := session.size.1
  refine ⟨entered, last, runs, ?_, runs.attemptRun_eq session room printable, runs.run_eq,
    runs.status, ?_⟩
  · exact made ▸ runs.length_le
  · rw [runs.limitReached]
    refine or_congr_right (exists_congr fun now ↦ and_congr_right fun met ↦ ?_)
    rw [runs.config now met, made]

/-- A branch to itself ends at the ceiling after three steps if two instructions are allowed. -/
theorem run_ends_loop :
    let loop : Word := (Instruction.branch false 0).encode
    let host : Host BufferConsole MemoryStore ManualClock := ⟨.ofInput [], .empty, .startingAt 0⟩
    ∃ blank start, new 64 { memorySize := 4, maxInstructions := 2 } host = .ok blank ∧
      blank.load loop.toBytes = .ok start ∧ start.run.LimitReached ∧
      ∃ entered last, Runs start entered last ∧ entered.length ≤ 3 ∧
        (∃ now ∈ entered, now.status = .running ∧ (2 : Int) ≤ now.executed) ∧
        ∃ enough, ∀ rounds calls, enough ≤ rounds → 3 ≤ calls →
          start.attemptRun rounds calls = (.ok (), start.run) := by
  intro loop host
  let config : Config := { memorySize := 4, maxInstructions := 2 }
  let blank := ofMemory config ⟨0, Array.replicate 4 0, 0⟩ host #[]
  have created : new 64 config host = .ok blank := rfl
  obtain ⟨start, begun⟩ : ∃ start, start = (blank.load loop.toBytes).toOption.getD blank := ⟨_, rfl⟩
  have loaded : blank.load loop.toBytes = .ok start := by
    rw [begun]
    rfl
  have fresh : start.status = .running ∧ start.executed = 0 := by
    rw [begun]
    exact ⟨rfl, rfl⟩
  have ended : start.run.status = .faulted ⟨.instructionLimit 2, 0⟩ := by
    rw [begun]
    decide +kernel
  have limited : start.run.LimitReached := ⟨2, 0, ended⟩
  have room : config.HasRoom := ⟨fun _ ↦ rfl, fun _ ↦ by decide⟩
  have printable : Text.PrintableNumber config.maxInstructions := Text.printableNumber_of_lt (by decide)
  obtain ⟨entered, last, runs, length, ⟨enough, attempted⟩, same, -, limit⟩ :=
    run_ends ((Session.new created).load loaded) room printable
  rw [fresh.2] at length
  have ceiling : config.maxInstructions = 2 := rfl
  have short : entered.length ≤ 3 := by omega
  have reached : last.noteEnd.LimitReached := same ▸ limited
  have found := (limit.mp reached).resolve_left (not_limitReached (.inl fresh.1))
  refine ⟨blank, start, created, loaded, limited, entered, last, runs, short, found, enough,
    fun rounds calls many length ↦ ?_⟩
  rw [same]
  exact attempted rounds calls many (Nat.le_trans short length)

/-- A run of attempts ends where its first one escapes. -/
theorem attemptRun_of_escape {machine : Machine κ φ τ} {rounds : Nat} {escape : Escape}
    (escapes : machine.attempt rounds = .error escape) (calls : Nat) :
    machine.attemptRun rounds (calls + 1) = (.error escape, machine) := by
  have ended : machine.attemptSteps rounds (calls + 1) = (.error escape, machine) := by
    rw [attemptSteps, escapes]
  unfold attemptRun
  dsimp only
  rw [ended, Attempt.bind_error rfl]

/--
A run does not end halted or faulted where a row of the canvas has no length, and where the ceiling
has too many digits. One that is begun at the ceiling ends there, and no step finds it running.
-/
theorem run_exceptions :
    let clear : Word := (Instruction.exception .svc 0x110).encode
    let host : Host BufferConsole MemoryStore ManualClock := ⟨.ofInput [], .empty, .startingAt 0⟩
    (∃ blank start,
      new 64 { memorySize := 4, defaultCanvas := ⟨-2 ^ 63 - 1, 1⟩ } host = .ok blank ∧
      blank.load clear.toBytes = .ok start ∧ start.status = .running ∧
      ∀ rounds calls, start.attemptRun rounds (calls + 1) = (.error .length, start)) ∧
    (∃ blank start,
      new 64 { memorySize := 4, maxInstructions := -10 ^ Text.digitLimit } host = .ok blank ∧
      blank.load clear.toBytes = .ok start ∧ start.status = .running ∧
      ∀ rounds calls, start.attemptRun rounds (calls + 1) = (.error .digits, start)) ∧
    ∃ blank start, new 64 { memorySize := 4, maxInstructions := 0 } host = .ok blank ∧
      blank.load clear.toBytes = .ok start ∧ start.run.LimitReached ∧
      start.run.status ≠ .running ∧ Runs start.run [start.run] start.run := by
  intro clear host
  have four_le : (4 : Int) ≤ 64 := by decide
  refine ⟨?_, ?_, ?_⟩
  · let config : Config := { memorySize := 4, defaultCanvas := ⟨-2 ^ 63 - 1, 1⟩ }
    obtain ⟨blank, start, created, loaded, ready, memory, log, rfl⟩ :=
      exists_load_word four_le (show config.addressBase = 0 from rfl) rfl host clear
    refine ⟨blank, _, created, loaded, rfl, fun rounds calls ↦ ?_⟩
    apply attemptRun_of_escape
    apply (ready (by decide)).attempt_eq_error
    rfl
  · let config : Config := { memorySize := 4, maxInstructions := -10 ^ Text.digitLimit }
    obtain ⟨blank, start, created, loaded, -, memory, log, rfl⟩ :=
      exists_load_word four_le (show config.addressBase = 0 from rfl) rfl host clear
    obtain ⟨low, long⟩ := Text.not_printableNumber_neg_pow
    refine ⟨blank, _, created, loaded, rfl, fun rounds calls ↦ attemptRun_of_escape ?_ calls⟩
    exact attempt_eq_digits rfl low long
  · let config : Config := { memorySize := 4, maxInstructions := 0 }
    obtain ⟨blank, start, created, loaded, -, memory, log, rfl⟩ :=
      exists_load_word four_le (show config.addressBase = 0 from rfl) rfl host clear
    have limited : (ofMemory config memory host log).run.status =
      .faulted ⟨.instructionLimit 0, 0⟩ := rfl
    have stopped : (ofMemory config memory host log).run.status ≠ .running := by
      rw [limited]
      exact Status.noConfusion
    have stays := step_of_stopped stopped
    have again := Runs.stop (congrArg Prod.fst stays)
    rw [congrArg Prod.snd stays] at again
    exact ⟨blank, _, created, loaded, ⟨0, 0, limited⟩, stopped, again⟩

end Machine

end MiniA64
