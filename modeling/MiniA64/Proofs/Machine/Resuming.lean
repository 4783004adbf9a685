import MiniA64.Proofs.Machine.Termination
import MiniA64.Proofs.Machine.Views

/-!
# Stopping and resuming

A hook that prevents an instruction leaves the machine as it was before the step, so the machine at
which a run stops is one that the run comes to without the hook, or the one it ends with. Going on
from there ends as the run does. The records that the stopped runs leave in the log are all that
tells one from the other, and nothing reads the log.
-/

namespace MiniA64

namespace Machine

variable {κ φ τ : Type} [Console κ] [FileStore φ] [Clock τ]

/-! ## Observers -/

/-- What stops runs by looking at the machine, with the state in which it begins. -/
structure Observer (κ φ τ : Type) where
  η : Type
  hook : Machine κ φ τ → Hook η
  state : η

/-- Steps with a hook that sees the machine before each of them. -/
def stepsObserved {η : Type} (hook : Machine κ φ τ → Hook η) :
    Nat → η → Machine κ φ τ → Machine κ φ τ × η
  | 0, state, machine => (machine, state)
  | steps + 1, state, machine =>
    match machine.stepWatched (hook machine) state with
    | (true, next, state) => stepsObserved hook steps state next
    | (false, next, state) => (next, state)

/-- The machine after a run that an observer may stop. -/
def runObserved (observer : Observer κ φ τ) (machine : Machine κ φ τ) : Machine κ φ τ :=
  (stepsObserved observer.hook (machine.budget + 1) observer.state machine).1.noteEnd

/-- A watched run is observed without a look at the machine. -/
theorem runObserved_const {η : Type} (hook : Hook η) (state : η) (machine : Machine κ φ τ) :
    machine.runObserved ⟨η, fun _ ↦ hook, state⟩ = (machine.runWatched hook state).1 := by
  have steps (count : Nat) : stepsObserved (fun _ ↦ hook) count state machine =
      stepsFor hook count state machine := by
    induction count generalizing state machine with
    | zero => rfl
    | succ count ih =>
      unfold stepsObserved stepsFor
      obtain ⟨_ | _, next, state⟩ := machine.stepWatched hook state
      · rfl
      · exact ih ..
  exact congrArg (fun outcome : Machine κ φ τ × η ↦ outcome.1.noteEnd) (steps _)

/-! ## Runs -/

namespace Runs

variable {machine last : Machine κ φ τ} {entered : List (Machine κ φ τ)}

/-- From where a run has ended, nothing more is run. -/
theorem of_ended (ends : machine.step.1 = false) (runs : Runs machine.step.2 entered last) :
    ∃ entered, Runs machine entered last := by
  have stopped : machine.step.2.status ≠ .running := by
    rw [step_fst] at ends
    exact of_decide_eq_false ends
  have stays := step_of_stopped stopped
  cases runs with
  | stop stops =>
    rw [congrArg Prod.snd stays]
    exact ⟨_, .stop ends⟩
  | next goes runs =>
    rw [stays] at goes
    cases goes

/-- What follows a run that may be stopped also follows the machine with which that has begun. -/
theorem of_stepsObserved {η : Type} {hook : Machine κ φ τ → Hook η} {steps : Nat} {state : η}
    (runs : Runs (stepsObserved hook steps state machine).1 entered last) :
    ∃ entered, Runs machine entered last := by
  induction steps generalizing state machine with
  | zero => exact ⟨entered, runs⟩
  | succ steps ih =>
    have step := stepWatched_prevented_or (hook machine) state machine
    unfold stepsObserved at runs
    generalize machine.stepWatched (hook machine) state = answer at runs step
    obtain ⟨goes, next, state⟩ := answer
    dsimp only at step
    obtain ⟨rfl, rfl⟩ | ⟨rfl, rfl⟩ := step
    · exact ⟨entered, runs⟩
    · cases goes : machine.step.1 with
      | true =>
        rw [goes] at runs
        obtain ⟨entered, runs⟩ := ih runs
        exact ⟨_, .next goes runs⟩
      | false =>
        rw [goes] at runs
        exact of_ended goes runs

theorem silent_run (runs : Runs machine entered last) : machine.run.silent = last.silent := by
  rw [runs.run_eq]
  rfl

end Runs

/-- Machines that differ only in their logs end alike. -/
theorem silent_run_congr {first second : Machine κ φ τ} (same : first.silent = second.silent) :
    first.run.silent = second.run.silent := by
  rw [← first.silent_seen, ← second.silent_seen, same, run_seen, run_seen]
  rfl

/-! ## Resumed runs -/

/-- A run that follows an observed run ends as if there had been no observed run. -/
theorem silent_run_runObserved (observer : Observer κ φ τ) (machine : Machine κ φ τ) :
    (machine.runObserved observer).run.silent = machine.run.silent := by
  let stopped := (stepsObserved observer.hook (machine.budget + 1) observer.state machine).1
  obtain ⟨entered, last, runs⟩ := exists_runs stopped
  obtain ⟨before, whole⟩ := runs.of_stepsObserved
  have noted : (machine.runObserved observer).silent = stopped.silent := rfl
  calc (machine.runObserved observer).run.silent
      = stopped.run.silent := silent_run_congr noted
    _ = last.silent := runs.silent_run
    _ = machine.run.silent := whole.silent_run.symm

/--
A run that is stopped and resumed, as often as there are observers and wherever they stop it, leaves
the machine as the run does that nothing stops, in all but the log.
-/
theorem run_resumed (observers : List (Observer κ φ τ)) (machine : Machine κ φ τ) :
    (observers.foldl (fun machine observer ↦ machine.runObserved observer) machine).run.silent =
      machine.run.silent := by
  induction observers generalizing machine with
  | nil => rfl
  | cons observer observers ih =>
    rw [List.foldl_cons, ih, silent_run_runObserved]

end Machine

end MiniA64
