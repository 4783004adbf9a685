import MiniA64.Proofs.Machine.Watching

/-!
# What becomes of failures

The records of a watched machine tell which devices failed in a step and what became of it. An
error of the console is the cause of a fault at the instruction, and after an error of the file
store the first register is zero and the program goes on.
-/

namespace MiniA64

variable {κ φ τ : Type}

/-! ## Services -/

theorem World.host_write (world : World κ φ τ) (address : Int) (data : List UInt8) :
    (world.write address data).host = world.host := by
  unfold write
  split <;> rfl

theorem World.host_read (world : World κ φ τ) (address length : Int) :
    (world.read address length).2.host = world.host := by
  unfold read
  split <;> rfl

/-- A failure of the console is the cause of a fault, and is recorded exactly once. -/
structure World.Reports {α : Type} (world : World (Watched κ) (Watched φ) τ)
    (outcome : Except FaultCause α × World (Watched κ) (Watched φ) τ) : Prop where
  files : outcome.2.host.files = world.host.files
  ok : ∀ value, outcome.1 = .ok value →
    outcome.2.host.console.failures = world.host.console.failures
  error : ∀ cause, outcome.1 = .error cause → ∃ error,
    outcome.2.host.console.failures = error :: world.host.console.failures ∧
      (cause = .consoleWrite error ∨ cause = .consoleRead error)

namespace World.Reports

variable {world : World (Watched κ) (Watched φ) τ}

/-- What follows an answer of the console reports as the whole does. -/
theorem after {α β : Type} {first : Except FaultCause α × World (Watched κ) (Watched φ) τ}
    {second : World (Watched κ) (Watched φ) τ}
    {outcome : Except FaultCause β × World (Watched κ) (Watched φ) τ} {value : α}
    (before : world.Reports first) (answered : first.1 = .ok value)
    (same : second.host = first.2.host) (rest : second.Reports outcome) :
    world.Reports outcome := by
  have kept : second.host.console.failures = world.host.console.failures := by
    rw [same]
    exact before.ok value answered
  refine ⟨rest.files.trans ?_, ?_, ?_⟩
  · rw [same]
    exact before.files
  · intro value answered
    exact (rest.ok value answered).trans kept
  · intro cause failed
    rw [← kept]
    exact rest.error cause failed

theorem done {α : Type} (value : α) : world.Reports (.ok value, world) :=
  ⟨rfl, fun _ _ ↦ rfl, fun _ failed ↦ nomatch failed⟩

variable {α β : Type} {outcome : Except FaultCause α × World (Watched κ) (Watched φ) τ}

theorem failed {cause : FaultCause} (reports : world.Reports outcome)
    (failed : outcome.1 = .error cause) :
    world.Reports ((.error cause, outcome.2) : Except FaultCause β × _) where
  files := reports.files
  ok _ answered := nomatch answered
  error _ raised := by
    cases raised
    exact reports.error cause failed

theorem map (reports : world.Reports outcome) (change : α → β) :
    world.Reports (outcome.1.map change, outcome.2) := by
  cases answered : outcome.1 with
  | ok value => exact reports.after answered rfl (done (change value))
  | error cause => exact reports.failed answered

end World.Reports

section

variable [Console κ] (world : World (Watched κ) (Watched φ) τ)

namespace World

theorem reports_print (data : List UInt8) : world.Reports (world.print data) := by
  have failures : (world.print data).2.host.console.failures =
      Watched.record (Console.write data world.host.console.device).1
        world.host.console.failures := rfl
  have answer : (Console.write data world.host.console).1 =
      (Console.write data world.host.console.device).1 := rfl
  refine ⟨rfl, ?_, ?_⟩
  all_goals
    rw [failures]
    dsimp only [print]
    rw [answer]
    cases (Console.write data world.host.console.device).1 <;> simp [Watched.record]

theorem reports_input : world.Reports world.input := by
  have failures : world.input.2.host.console.failures =
      Watched.record (Console.readByte world.host.console.device).1
        world.host.console.failures := rfl
  have answer : (Console.readByte world.host.console).1 =
      (Console.readByte world.host.console.device).1 := rfl
  refine ⟨rfl, ?_, ?_⟩
  all_goals
    rw [failures]
    dsimp only [input]
    rw [answer]
    cases (Console.readByte world.host.console.device).1 <;> simp [Watched.record]

end World

theorem Service.reports_readLine (buffer limit : Int) (length : Nat) :
    world.Reports (readLine buffer limit length world) := by
  fun_induction readLine buffer limit length world with
  | case1 length world short cause answer => exact world.reports_input.failed answer
  | case2 length world short answer => exact world.reports_input.after answer rfl (.done length)
  | case3 length world short byte answer ends =>
    have echo := world.input.2.reports_print [10]
    exact world.reports_input.after answer rfl (echo.map _)
  | case4 world byte answer goes erases short ih => exact world.reports_input.after answer rfl ih
  | case5 length world short byte answer goes erases some cause failed =>
    have echo := world.input.2.reports_print eraseEcho
    exact world.reports_input.after answer rfl (echo.failed failed)
  | case6 length world short byte answer goes erases some _ echoed ih =>
    have echo := world.input.2.reports_print eraseEcho
    exact world.reports_input.after answer rfl (echo.after echoed rfl ih)
  | case7 length world short byte answer goes stays cause failed =>
    have echo := world.input.2.reports_print [byte]
    exact world.reports_input.after answer rfl (echo.failed failed)
  | case8 length world short byte answer goes stays _ echoed ih =>
    have echo := world.input.2.reports_print [byte]
    exact world.reports_input.after answer rfl (echo.after echoed (World.host_write ..) ih)
  | case9 length world full => exact .done length

end

theorem World.console_onFiles (world : World κ φ τ) (operation : φ → Reply φ Int) :
    (world.onFiles operation).2.host.console = world.host.console := by
  unfold onFiles
  dsimp only
  split <;> rfl

/-- An operation on the file store has an answer, or its error is recorded and it counts as zero. -/
theorem World.failures_onFiles (world : World (Watched κ) (Watched φ) τ)
    {operation : Watched φ → Reply (Watched φ) Int} {plain : φ → Reply φ Int}
    (called : operation world.host.files = Watched.call plain world.host.files) :
    (∃ value, (operation world.host.files).1 = .ok value ∧
      (world.onFiles operation).2.host.files.failures = world.host.files.failures) ∨
    ∃ error, (operation world.host.files).1 = .error error ∧
      (world.onFiles operation).2.host.files.failures = error :: world.host.files.failures ∧
      (world.onFiles operation).1 = 0 := by
  unfold onFiles
  rw [called]
  unfold Watched.call
  dsimp only
  cases (plain world.host.files.device).1 with
  | ok value => exact .inl ⟨value, rfl, rfl⟩
  | error error => exact .inr ⟨error, rfl, rfl, rfl⟩

/--
What the records tell of a service: an error of the console is the cause of its fault, and after
an error of the file store it is done with zero.
-/
structure Service.Reports (world : World (Watched κ) (Watched φ) τ)
    (outcome : ServiceResult × World (Watched κ) (Watched φ) τ) : Prop where
  console : outcome.2.host.console.failures = world.host.console.failures ∨ ∃ error,
    outcome.2.host.console.failures = error :: world.host.console.failures ∧
      (outcome.1 = .fault (.consoleWrite error) ∨ outcome.1 = .fault (.consoleRead error))
  files : outcome.2.host.files.failures = world.host.files.failures ∨ ∃ error,
    outcome.2.host.files.failures = error :: world.host.files.failures ∧
      outcome.1 = .done (some 0)

namespace Service

theorem host_copyBytes (argument : Arguments) (world : World κ φ τ) :
    (copyBytes argument world).host = world.host := by
  unfold copyBytes
  dsimp only
  split
  · rfl
  split
  · exact (World.host_write ..).trans (World.host_read ..)
  · exact World.host_read ..

theorem host_fillBytes (argument : Arguments) (world : World κ φ τ) :
    (fillBytes argument world).host = world.host := by
  unfold fillBytes
  dsimp only
  split
  · rfl
  · exact World.host_write ..

variable {world : World (Watched κ) (Watched φ) τ}

/-- A service that leaves the console and the file store alone has nothing to report. -/
theorem Reports.of_devices {outcome : ServiceResult × World (Watched κ) (Watched φ) τ}
    (console : outcome.2.host.console = world.host.console)
    (files : outcome.2.host.files = world.host.files) : Reports world outcome where
  console := .inl (congrArg Watched.failures console)
  files := .inl (congrArg Watched.failures files)

/-- A service that talks to the console and faults when that fails. -/
theorem Reports.of_console {α : Type} {answer : Except FaultCause α × World (Watched κ) (Watched φ) τ}
    {outcome : ServiceResult × World (Watched κ) (Watched φ) τ} (reports : world.Reports answer)
    (host : outcome.2.host = answer.2.host)
    (fault : ∀ cause, answer.1 = .error cause → outcome.1 = .fault cause) :
    Reports world outcome where
  console := by
    rw [host]
    cases answered : answer.1 with
    | ok value => exact .inl (reports.ok value answered)
    | error cause =>
      obtain ⟨error, recorded, cause⟩ := reports.error cause answered
      obtain rfl | rfl := cause
      · exact .inr ⟨error, recorded, .inl (fault _ answered)⟩
      · exact .inr ⟨error, recorded, .inr (fault _ answered)⟩
  files := by
    rw [host, reports.files]
    exact .inl rfl

/-- A service whose answer is that of one operation on the file store. -/
theorem Reports.of_files {operation : Watched φ → Reply (Watched φ) Int}
    {plain : φ → Reply φ Int} {before : World (Watched κ) (Watched φ) τ}
    (host : before.host = world.host)
    (called : operation before.host.files = Watched.call plain before.host.files) :
    Reports world (returning (before.onFiles operation)) := by
  have console := before.console_onFiles operation
  refine ⟨.inl (congrArg Watched.failures (console.trans (congrArg Host.console host))), ?_⟩
  rw [← host]
  obtain ⟨value, -, kept⟩ | ⟨error, -, recorded, zero⟩ := before.failures_onFiles called
  · exact .inl kept
  · exact .inr ⟨error, recorded, congrArg (fun value ↦ ServiceResult.done (some value)) zero⟩

variable (world)

theorem reports_runFileRead [FileStore φ] (config : Config) (argument : Arguments) :
    Reports world (runFileRead config argument world) := by
  unfold runFileRead
  dsimp only
  generalize readName config world (argument 0) = name
  split
  · exact .of_devices rfl rfl
  · generalize read : FileStore.read name world.host.files = reply
    have recorded : reply.2.failures = Watched.record reply.1 world.host.files.failures :=
      read ▸ rfl
    obtain ⟨error | none | data, files⟩ := reply
    · exact ⟨.inl rfl, .inr ⟨error, recorded, rfl⟩⟩
    · exact ⟨.inl rfl, .inl recorded⟩
    · refine ⟨.inl ?_, .inl ?_⟩ <;> dsimp only <;> rw [World.host_write]
      · rfl
      · exact recorded

variable [Console κ]

theorem reports_say (data : List UInt8) : Reports world (say world data) := by
  refine .of_console (world.reports_print data) rfl ?_
  intro cause failed
  unfold say ofAnswer
  rw [failed]

theorem reports_runInputLine (config : Config) (argument : Arguments) :
    Reports world (runInputLine config argument world) := by
  have line := reports_readLine world (argument 0)
    (min (if argument 1 = 0 then config.lineDefault else argument 1) config.lineLimit) 0
  refine .of_console line ?_ ?_
  · unfold runInputLine
    dsimp only
    split
    · rfl
    · exact World.host_write ..
  · intro cause failed
    unfold runInputLine
    dsimp only
    rw [failed]

theorem reports_run [FileStore φ] [Clock τ] (config : Config) (service : Service)
    (argument : Arguments) : Reports world (run config service argument world) := by
  cases service with
  | printString | printChar | printNumber | printHex => exact reports_say ..
  | inputChar =>
    have input := world.reports_input
    unfold run
    dsimp only
    generalize world.input = reply at input ⊢
    refine .of_console input ?_ ?_ <;> obtain ⟨_ | _, after⟩ := reply
    · rfl
    · rfl
    · rintro cause ⟨⟩
      rfl
    · rintro cause ⟨⟩
  | inputLine => exact reports_runInputLine ..
  | fileCreate | fileDelete | fileExists => exact .of_files rfl (askFiles_watched ..)
  | fileWrite =>
    refine .of_files ?_ (fileWriteFrom_watched ..)
    split
    · rfl
    · exact World.host_read ..
  | fileRead => exact reports_runFileRead ..
  | fileCopy | fileMove => exact .of_files rfl (transferFile_watched ..)
  | copyMemory =>
    have same := host_copyBytes argument world
    exact .of_devices (congrArg Host.console same) (congrArg Host.files same)
  | fillMemory =>
    have same := host_fillBytes argument world
    exact .of_devices (congrArg Host.console same) (congrArg Host.files same)
  | _ => exact .of_devices rfl rfl

theorem reports_dispatch [FileStore φ] [Clock τ] (config : Config) (number : Int)
    (argument : Arguments) : Reports world (dispatch config number argument world) := by
  unfold dispatch
  cases ofNumber? number with
  | none => exact .of_devices rfl rfl
  | some service =>
    exact ⟨(reports_run (world.note ..) config service argument).console,
      (reports_run (world.note ..) config service argument).files⟩

end Service

/-! ## Steps -/

namespace Machine

theorem host_count (machine : Machine κ φ τ) : machine.count.world.host = machine.world.host := by
  unfold count
  split <;> rfl

theorem count_of_running {machine : Machine κ φ τ} (running : machine.status = .running) :
    machine.count = { machine with executed := machine.executed + 1 } :=
  if_pos (decide_eq_true running)

/-- A machine that has faulted does not count. -/
theorem count_raise (machine : Machine κ φ τ) (cause : FaultCause) :
    (machine.raise cause).count = machine.raise cause :=
  if_neg (fun running ↦ nomatch of_decide_eq_true running)

theorem running_of_fetch {machine : Machine κ φ τ} {word : Word}
    (fetched : machine.fetch = .ok word) : machine.status = .running := by
  unfold fetch at fetched
  dsimp only at fetched
  split at fetched
  · cases fetched
  · rename_i running
    simpa [isRunning] using running

variable [Console κ] [FileStore φ] [Clock τ]

/-- A step leaves the devices as they are unless a running machine carries out a supervisor call. -/
theorem step_cases (machine : Machine κ φ τ) :
    machine.step.2.world.host = machine.world.host ∨
      machine.status = .running ∧ ∃ number : BitVec 16, machine.step =
        ((machine.serviceCall number).count.isRunning, (machine.serviceCall number).count) := by
  unfold step
  cases fetched : machine.fetch with
  | error stopped =>
    obtain rfl | ⟨cause, rfl⟩ | rfl := eq_of_fetch_error fetched <;> exact .inl rfl
  | ok word =>
    dsimp only [perform]
    cases decode word with
    | error error => exact .inl rfl
    | ok instruction =>
      by_cases call : ∃ number, instruction = .exception .svc number
      · obtain ⟨number, rfl⟩ := call
        exact .inr ⟨running_of_fetch fetched, number, rfl⟩
      · have same := (machine.outside_execute (not_exists.mp call)).host
        exact .inl ((host_count _).trans same)

/-- An error of the console ends the step with a fault at the instruction. -/
theorem console_step (machine : Machine (Watched κ) (Watched φ) τ) :
    machine.step.2.world.host.console.failures = machine.world.host.console.failures ∨
      ∃ error cause, (cause = .consoleWrite error ∨ cause = .consoleRead error) ∧
        machine.step.2.world.host.console.failures =
          error :: machine.world.host.console.failures ∧
        machine.step.1 = false ∧ machine.step.2.status = .faulted ⟨cause, machine.registers.pc⟩ := by
  obtain same | ⟨running, number, stepped⟩ := machine.step_cases
  · exact .inl (congrArg (fun host ↦ host.console.failures) same)
  obtain ⟨argument, result, world, dispatched, done⟩ := machine.serviceCall_cases number
  have reports := Service.reports_dispatch machine.world machine.config number.toNat argument
  rw [dispatched] at reports
  rw [stepped, done]
  obtain kept | ⟨error, recorded, fault⟩ := reports.console
  · refine .inl ?_
    rw [host_count]
    obtain (none | value) | _ | cause := result <;> exact kept
  · obtain ⟨cause, known, rfl⟩ : ∃ cause, (cause = .consoleWrite error ∨
        cause = .consoleRead error) ∧ result = .fault cause := by
      obtain fault | fault := fault
      · exact ⟨_, .inl rfl, fault⟩
      · exact ⟨_, .inr rfl, fault⟩
    refine .inr ⟨error, cause, known, ?_⟩
    dsimp only
    rw [count_raise]
    exact ⟨recorded, rfl, rfl⟩

/-- After an error of the file store the first register is zero, and the machine goes on. -/
theorem files_step (machine : Machine (Watched κ) (Watched φ) τ) :
    machine.step.2.world.host.files.failures = machine.world.host.files.failures ∨
      ∃ error,
        machine.step.2.world.host.files.failures = error :: machine.world.host.files.failures ∧
        machine.step.1 = true ∧ machine.step.2.status = .running ∧
        machine.step.2.registers = (machine.write .w64 0 0).proceed.registers ∧
        machine.step.2.executed = machine.executed + 1 := by
  obtain same | ⟨running, number, stepped⟩ := machine.step_cases
  · exact .inl (congrArg (fun host ↦ host.files.failures) same)
  obtain ⟨argument, result, world, dispatched, done⟩ := machine.serviceCall_cases number
  have reports := Service.reports_dispatch machine.world machine.config number.toNat argument
  rw [dispatched] at reports
  rw [stepped, done]
  obtain kept | ⟨error, recorded, zero⟩ := reports.files
  · refine .inl ?_
    rw [host_count]
    obtain (none | value) | _ | cause := result <;> exact kept
  · obtain rfl : result = .done (some 0) := zero
    have goes : (write { machine with world } .w64 0 (BitVec.ofInt 64 0)).proceed.status =
        .running := running
    refine .inr ⟨error, ?_⟩
    dsimp only
    rw [count_of_running goes]
    exact ⟨recorded, decide_eq_true running, running, rfl, rfl⟩

end Machine

end MiniA64
