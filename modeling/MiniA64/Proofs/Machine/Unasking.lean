import MiniA64.Host.Memory
import MiniA64.Proofs.Machine.Termination
import MiniA64.Proofs.Machine.Views

/-!
# Steps that ask for nothing

A program learns of its surroundings by reading the console and the clock. A step that does neither
is the same whatever input is left and whatever the time is. It is a step of the bare machine, which
has no input, no time, no output and no log: what the bare machine prints is added to the output,
the input stays as it is, and all else is as the bare machine has it.
-/

namespace MiniA64

/-- The services that ask for input or for the time. -/
def Service.asks : Service → Bool
  | inputChar | inputLine | uptime => true
  | _ => false

/-! ## Devices that are not asked -/

/-- A clock that stands still. -/
instance : Clock Unit where
  sleep _ _ := ()
  uptime _ := 0

/-- A console whose input is not found. -/
def Unheard (κ : Type) : Type := κ

instance {κ : Type} [Console κ] : Console (Unheard κ) where
  write := Console.write (κ := κ)
  readByte console := (.ok none, console)
  remaining _ := 0
  remaining_write _ _ := Nat.le_refl 0
  remaining_readByte _ _ h := nomatch h

/-- A clock that does not tell the time. -/
def Untold (τ : Type) : Type := τ

instance {τ : Type} [Clock τ] : Clock (Untold τ) where
  sleep := Clock.sleep (τ := τ)
  uptime _ := 0

namespace Machine

variable {κ φ τ : Type}

/-- Whether the next step carries out a service that asks. -/
def asks (machine : Machine κ φ τ) : Bool :=
  match machine.fetch with
  | .error _ => false
  | .ok word =>
    match decode word with
    | .ok (.exception .svc number) => (Service.ofNumber? number.toNat).any Service.asks
    | _ => false

/-- The same machine with devices that do not answer. -/
def unanswered (machine : Machine κ φ τ) : Machine (Unheard κ) φ (Untold τ) := machine

variable [Console κ] [FileStore φ] [Clock τ]

/-- What does not ask need not be answered. -/
theorem step_unanswered {machine : Machine κ φ τ} (unasking : machine.asks = false) :
    machine.unanswered.step = (machine.step.1, machine.step.2.unanswered) := by
  have fetch : machine.unanswered.fetch = machine.fetch := rfl
  unfold step
  rw [fetch]
  cases fetched : machine.fetch with
  | error stopped => rfl
  | ok word =>
    have same : machine.unanswered.perform word = (machine.perform word).unanswered := by
      unfold perform
      cases decoded : decode word with
      | error error => rfl
      | ok instruction =>
        cases instruction with
        | exception op number =>
          cases op with
          | svc =>
            dsimp only [execute]
            unfold serviceCall Service.dispatch
            cases known : Service.ofNumber? number.toNat with
            | none => rfl
            | some service =>
              -- All other services use the devices as they are.
              cases service with
              | inputChar | inputLine | uptime =>
                simp only [asks, fetched, decoded, known] at unasking
                cases unasking
              | _ => rfl
          | hvc | smc => rfl
        | _ => rfl
    exact congrArg (fun next : Machine κ φ τ ↦ (next.isRunning, next.unanswered)) same

end Machine

/-! ## Bare machines -/

theorem Untold.shows_clock (τ : Type) [Clock τ] : ShowsClock fun _ : Untold τ ↦ () :=
  ⟨fun _ _ ↦ rfl, fun _ ↦ rfl⟩

/-- Sees no time. -/
def View.timeless (κ φ τ : Type) [Console κ] [FileStore φ] [Clock τ] :
    View κ κ φ φ (Untold τ) Unit where
  console := id
  files := id
  clock _ := ()
  log := id
  shows_console := .same
  shows_files := .same
  shows_clock := Untold.shows_clock τ
  shows_log := .same

/-- The console after what has been printed to it since, and with its input. -/
def Unheard.since (console : BufferConsole) (later : Unheard BufferConsole) :
    Unheard BufferConsole :=
  (⟨console.input, console.output ++ BufferConsole.output later⟩ : BufferConsole)

theorem Unheard.shows_since (console : BufferConsole) : ShowsConsole (since console) where
  write data later := by
    let whole : Array UInt8 := BufferConsole.output later
    have same : console.output ++ whole ++ data = console.output ++ (whole ++ data) := by
      apply Array.toList_inj.mp
      rw [Array.toList_appendList, Array.toList_append, Array.toList_append,
        Array.toList_appendList, List.append_assoc]
    exact congrArg (fun output : Array UInt8 ↦
      ((.ok (), (⟨console.input, output⟩ : BufferConsole)) :
        Reply (Unheard BufferConsole) Unit)) same
  readByte _ := rfl

/-- Sees a machine that has printed and logged before, and input that it does not hear. -/
def View.since (φ : Type) [FileStore φ] (console : BufferConsole) (records : Array LogRecord) :
    View (Unheard BufferConsole) (Unheard BufferConsole) φ φ Unit Unit where
  console := Unheard.since console
  files := id
  clock := id
  log := (records ++ ·)
  shows_console := Unheard.shows_since console
  shows_files := .same
  shows_clock := .same
  shows_log := .since records

namespace Machine

variable {κ φ τ τ' : Type}

/-- The machine with neither input nor time, and without output and log. -/
def bare (machine : Machine κ φ τ) : Machine (Unheard BufferConsole) φ Unit :=
  { config := machine.config
    world :=
      { memory := machine.world.memory
        screen := machine.world.screen
        seed := machine.world.seed
        host := ⟨(⟨[], #[]⟩ : BufferConsole), machine.world.host.files, ()⟩
        log := #[] }
    registers := machine.registers
    status := machine.status
    executed := machine.executed
    depth := machine.depth }

/-- What has been printed and not been taken since. -/
def printed (machine : Machine BufferConsole φ τ) : List UInt8 :=
  machine.world.host.console.output.toList

variable [FileStore φ] [Clock τ] [Clock τ']

/-- What the next step prints if it asks for nothing. -/
def prints (machine : Machine κ φ τ) : List UInt8 :=
  (BufferConsole.output machine.bare.step.2.world.host.console).toList

/-- A bare machine is seen as the machine that has the console and the log. -/
theorem bare_seen (machine : Machine BufferConsole φ τ) :
    machine.bare.seen (.since φ machine.world.host.console machine.world.log) =
      machine.unanswered.seen (.timeless _ φ τ) := by
  unfold seen World.seen bare View.since View.timeless
  simp only [Array.append_empty]
  rfl

theorem asks_seen {κ' φ' : Type} [Console κ] [Console κ'] [FileStore φ']
    (view : View κ' κ φ' φ τ' τ) (machine : Machine κ' φ' τ') :
    (machine.seen view).asks = machine.asks := by
  unfold asks
  rw [fetch_seen]
  cases machine.fetch <;> rfl

theorem asks_bare (machine : Machine BufferConsole φ τ) : machine.bare.asks = machine.asks := by
  rw [← asks_seen (.since φ machine.world.host.console machine.world.log), bare_seen, asks_seen]
  rfl

section

variable {machine : Machine BufferConsole φ τ} (unasking : machine.asks = false)
include unasking

/-- A step that asks for nothing is a step of the bare machine. -/
theorem step_bare_seen :
    (machine.bare.step.1, machine.bare.step.2.seen
        (.since φ machine.world.host.console machine.world.log)) =
      (machine.step.1, machine.step.2.unanswered.seen (.timeless _ φ τ)) := by
  rw [← step_seen, bare_seen, step_seen, step_unanswered unasking]

theorem step_bare : machine.step.2.bare = machine.bare.step.2.bare :=
  (congrArg (fun outcome ↦ outcome.2.bare) (step_bare_seen unasking)).symm

theorem step_console : machine.step.2.world.host.console =
    ⟨machine.world.host.console.input, machine.world.host.console.output ++
      BufferConsole.output machine.bare.step.2.world.host.console⟩ :=
  (congrArg (fun outcome ↦ outcome.2.world.host.console) (step_bare_seen unasking)).symm

theorem step_input :
    machine.step.2.world.host.console.input = machine.world.host.console.input := by
  rw [step_console unasking]

theorem step_printed : machine.step.2.printed = machine.printed ++ machine.prints := by
  rw [printed, step_console unasking]
  exact Array.toList_append

end

/-- Machines that are the same when bare take the same step if it asks for nothing. -/
theorem step_congr_bare {first : Machine BufferConsole φ τ} {second : Machine BufferConsole φ τ'}
    (same : second.bare = first.bare) (unasking : first.asks = false) :
    second.step.2.bare = first.step.2.bare ∧
      second.step.2.printed = second.printed ++ first.prints ∧
      second.step.2.world.host.console.input = second.world.host.console.input := by
  have unasking' : second.asks = false := by rwa [← asks_bare, same, asks_bare]
  refine ⟨?_, ?_, step_input unasking'⟩
  · rw [step_bare unasking', same, step_bare unasking]
  · rw [step_printed unasking', prints, same, prints]

/-- A run that never asks prints what its steps print. -/
theorem Runs.printed {machine last : Machine BufferConsole φ τ}
    {entered : List (Machine BufferConsole φ τ)} (runs : Runs machine entered last)
    (unasking : ∀ now ∈ entered, now.asks = false) :
    last.printed = machine.printed ++ (entered.map prints).flatten := by
  induction runs with
  | stop stops =>
    rw [step_printed (unasking _ List.mem_cons_self), List.map_singleton, List.flatten_singleton]
  | next goes runs ih =>
    rw [ih fun now among ↦ unasking now (List.mem_cons_of_mem _ among),
      step_printed (unasking _ List.mem_cons_self), List.map_cons, List.flatten_cons,
      List.append_assoc]

end Machine

end MiniA64
