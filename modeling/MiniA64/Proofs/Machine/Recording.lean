import MiniA64.Host.Failing
import MiniA64.Proofs.Machine.Termination
import MiniA64.Proofs.Machine.Watching

/-!
# Failures of the console that are recorded

A run returns whatever its console does. A failure in a step is recorded as the fault with which the
run ends, so a run has at most one of them. The framebuffer is written after the run has ended, and
a failure of that write is recorded nowhere: it is the answer in place of the result, and the status
stays the one that the run has left.
-/

namespace MiniA64

namespace Machine

variable {κ φ τ : Type} [Console κ]

theorem flush_eq_error {machine : Machine κ φ τ} {error : DeviceError} :
    machine.flush.1 = .error error ↔ machine.world.screen.isActive = true ∧
      (Console.write machine.world.screen.ansi machine.world.host.console).1 = .error error := by
  unfold flush
  split
  · rename_i active
    exact (and_iff_right active).symm
  · rename_i hidden
    exact iff_of_false nofun fun shown ↦ hidden shown.1

theorem status_flush (machine : Machine κ φ τ) : machine.flush.2.status = machine.status := by
  unfold flush
  split <;> rfl

variable [FileStore φ] [Clock τ]

/-- A run records a failure of the console as the fault with which it ends, or there is none. -/
theorem Runs.console {machine last : Machine (Watched κ) (Watched φ) τ}
    {entered : List (Machine (Watched κ) (Watched φ) τ)} (runs : Runs machine entered last) :
    last.world.host.console.failures = machine.world.host.console.failures ∨
      ∃ error cause pc, (cause = .consoleWrite error ∨ cause = .consoleRead error) ∧
        last.world.host.console.failures = error :: machine.world.host.console.failures ∧
        last.status = .faulted ⟨cause, pc⟩ := by
  induction runs with
  | @stop machine stops =>
    obtain kept | ⟨error, cause, known, recorded, -, faulted⟩ := machine.console_step
    · exact .inl kept
    · exact .inr ⟨error, cause, _, known, recorded, faulted⟩
  | @next machine last entered goes runs ih =>
    -- A step that goes on has met no failure.
    obtain kept | ⟨-, -, -, -, stops, -⟩ := machine.console_step
    · rw [← kept]
      exact ih
    · rw [stops] at goes
      cases goes

theorem run_watched (machine : Machine κ φ τ) : machine.run = machine.watched.run.forget :=
  machine.watched.run_seen (Watched.view κ φ τ)

/-- Every failure of the console in a run is the cause of the fault with which the run ends. -/
theorem fault_of_failure (machine : Machine κ φ τ) {error : DeviceError}
    (failed : error ∈ machine.watched.run.world.host.console.failures) :
    ∃ cause pc, (cause = .consoleWrite error ∨ cause = .consoleRead error) ∧
      machine.run.status = .faulted ⟨cause, pc⟩ := by
  obtain ⟨entered, last, runs⟩ := exists_runs machine.watched
  have status : machine.run.status = last.status := by
    rw [run_watched, runs.run_eq]
    rfl
  rw [runs.run_eq] at failed
  change error ∈ last.world.host.console.failures at failed
  obtain none | ⟨only, cause, pc, known, recorded, faulted⟩ := runs.console
  · rw [none] at failed
    cases failed
  · rw [recorded] at failed
    obtain rfl := List.mem_singleton.mp failed
    exact ⟨cause, pc, known, status.trans faulted⟩

/--
A run returns, halted or faulted, and every failure of the console in it is the cause of its fault.
Its answer is an error exactly if a visible framebuffer cannot be written afterwards, and that
leaves the status as it was.
-/
theorem run_records {config : Config} {machine : Machine κ φ τ} (session : Session config machine)
    (room : config.HasRoom) (printable : Text.PrintableNumber config.maxInstructions) :
    (∃ enough, ∀ rounds calls, enough ≤ rounds → enough ≤ calls →
      machine.attemptRun rounds calls = (.ok (), machine.run)) ∧
    (machine.run.status = .halted ∨ ∃ fault, machine.run.status = .faulted fault) ∧
    machine.run = machine.watched.run.forget ∧
    (∀ error ∈ machine.watched.run.world.host.console.failures,
      ∃ cause pc, (cause = .consoleWrite error ∨ cause = .consoleRead error) ∧
        machine.run.status = .faulted ⟨cause, pc⟩) ∧
    (∀ error, (machine.runAndShow unwatched ()).1 = .error error ↔
      machine.run.world.screen.isActive = true ∧
        (Console.write machine.run.world.screen.ansi machine.run.world.host.console).1 =
          .error error) ∧
    (machine.runAndShow unwatched ()).2.1.status = machine.run.status := by
  obtain ⟨entered, last, runs⟩ := exists_runs machine
  obtain ⟨enough, attempted⟩ := runs.attemptRun_eq session room printable
  refine ⟨⟨max enough entered.length, fun rounds calls many length ↦ ?_⟩, ?_, machine.run_watched,
    fun error ↦ machine.fault_of_failure, fun error ↦ flush_eq_error, status_flush machine.run⟩
  · rw [runs.run_eq]
    exact attempted rounds calls (by omega) (by omega)
  · rw [runs.run_eq]
    exact runs.status

/-- A program that prints to a terminal that is gone ends with a fault, and there is an answer. -/
theorem run_records_print :
    let print : Word := (Instruction.exception .svc 0x101).encode
    let host : Host (FailingConsole BufferConsole) MemoryStore ManualClock :=
      ⟨⟨.ofInput [], some 0, none⟩, .empty, .startingAt 0⟩
    ∃ blank start, new 64 { memorySize := 4 } host = .ok blank ∧
      blank.load print.toBytes = .ok start ∧
      (∃ enough, ∀ rounds calls, enough ≤ rounds → enough ≤ calls →
        start.attemptRun rounds calls = (.ok (), start.run)) ∧
      (∃ cause pc, start.run.status = .faulted ⟨cause, pc⟩) ∧
      ∀ error, (start.runAndShow unwatched ()).1 ≠ .error error := by
  intro print host
  let config : Config := { memorySize := 4 }
  let blank := ofMemory config ⟨0, Array.replicate 4 0, 0⟩ host #[]
  have created : new 64 config host = .ok blank := rfl
  obtain ⟨start, begun⟩ : ∃ start, start = (blank.load print.toBytes).toOption.getD blank :=
    ⟨_, rfl⟩
  have loaded : blank.load print.toBytes = .ok start := by
    rw [begun]
    rfl
  have gone : FailingConsole.terminalGone ∈
      start.watched.run.world.host.console.failures := by
    rw [begun]
    decide +kernel
  have hidden : start.run.world.screen.isActive = false := by
    rw [begun]
    decide +kernel
  have room : config.HasRoom := ⟨fun _ ↦ rfl, fun _ ↦ by decide⟩
  have printable : Text.PrintableNumber config.maxInstructions := Text.printableNumber_of_lt (by decide)
  obtain ⟨returns, -, -, recorded, shown, -⟩ :=
    run_records ((Session.new created).load loaded) room printable
  obtain ⟨cause, pc, -, faulted⟩ := recorded _ gone
  refine ⟨blank, start, created, loaded, returns, ⟨cause, pc, faulted⟩, fun error failed ↦ ?_⟩
  have active := ((shown error).mp failed).1
  rw [hidden] at active
  cases active

/-- A program makes a framebuffer of three cells visible and halts, and then the framebuffer cannot
be written: the error is the answer, and no fault is recorded. -/
theorem flush_not_recorded :
    let width : Word := (Instruction.moveWide .w64 .movz ⟨0, by decide⟩ 3 0).encode
    let height : Word := (Instruction.moveWide .w64 .movz ⟨0, by decide⟩ 1 1).encode
    let canvas : Word := (Instruction.exception .svc 0x116).encode
    let halt : Word := (Instruction.exception .svc 0x1ff).encode
    let code := width.toBytes ++ height.toBytes ++ canvas.toBytes ++ halt.toBytes
    let host : Host (FailingConsole BufferConsole) MemoryStore ManualClock :=
      ⟨⟨.ofInput [], some 0, none⟩, .empty, .startingAt 0⟩
    ∃ blank start, new 64 { memorySize := 16 } host = .ok blank ∧ blank.load code = .ok start ∧
      (start.runAndShow unwatched ()).1 = .error FailingConsole.terminalGone ∧
      (start.runAndShow unwatched ()).2.1.status = .halted := by
  intro width height canvas halt code host
  let blank := ofMemory { memorySize := 16 } ⟨0, Array.replicate 16 0, 0⟩ host #[]
  obtain ⟨start, begun⟩ : ∃ start, start = (blank.load code).toOption.getD blank := ⟨_, rfl⟩
  refine ⟨blank, start, rfl, ?_, ?_, ?_⟩ <;> rw [begun]
  · rfl
  · decide +kernel
  · decide +kernel

end Machine

end MiniA64
