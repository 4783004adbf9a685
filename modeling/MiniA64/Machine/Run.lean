import MiniA64.Isa.Printing
import MiniA64.Machine.Execution

/-!
# Running a program

One step checks the instruction ceiling, the alignment of the program counter and that it lies
in the program, in this order; then it executes the word there. A run repeats steps until one
does not leave the machine running. Every step of a run but the last counts an instruction, so
the ceiling bounds the number of steps.
-/

namespace MiniA64

namespace Machine

variable {κ φ τ : Type}

/-- The word at the program counter, or the machine as it stops without executing one. -/
def fetch (machine : Machine κ φ τ) : Except (Machine κ φ τ) Word :=
  let pc := machine.registers.pc
  let memory := machine.world.memory
  if !machine.isRunning then .error machine
  else if machine.config.maxInstructions ≤ machine.executed then
    .error (machine.raise (.instructionLimit machine.config.maxInstructions))
  else if pc % 4 ≠ 0 then .error (machine.raise .misaligned)
  else
    match memory.translate pc 4 with
    | some offset =>
      if offset < memory.programSize then
        .ok (BitVec.ofNat 32 (littleEndian (Memory.slice memory.bytes offset (offset + 4))))
      else .error (leave machine pc)
    | none => .error (leave machine pc)
where
  leave (machine : Machine κ φ τ) (pc : Int) : Machine κ φ τ :=
    (machine.note .debug ("pc 0x" ++ Text.hexLower 0 pc ++ " left the program image")).halt

def faultOfDecoding (word : Word) : DecodeError → FaultCause
  | .unknown => .unknownInstruction word
  | .invalidTransfer => .invalidTransfer

/-- Counts an instruction if it left the machine running. -/
def count (machine : Machine κ φ τ) : Machine κ φ τ :=
  if machine.isRunning then { machine with executed := machine.executed + 1 } else machine

/-- Decodes and executes a word at the program counter. -/
def perform [Console κ] [FileStore φ] [Clock τ] (word : Word) (machine : Machine κ φ τ) :
    Machine κ φ τ :=
  match decode word with
  | .ok instruction => (machine.execute instruction).count
  | .error error => machine.raise (faultOfDecoding word error)

/-- One step, and whether an instruction ran and the machine still runs. -/
def step [Console κ] [FileStore φ] [Clock τ] (machine : Machine κ φ τ) : Bool × Machine κ φ τ :=
  match machine.fetch with
  | .error stopped => (false, stopped)
  | .ok word =>
    let next := machine.perform word
    (next.isRunning, next)

/-- What watches a run: it sees each instruction first and may stop the run before it. -/
abbrev Hook (η : Type) := Int → Word → η → Bool × η

/-- A step that a hook may prevent. -/
def stepWatched [Console κ] [FileStore φ] [Clock τ] {η : Type} (hook : Hook η) (state : η)
    (machine : Machine κ φ τ) : Bool × Machine κ φ τ × η :=
  match machine.fetch with
  | .error stopped => (false, stopped, state)
  | .ok word =>
    let (goes, state) := hook machine.registers.pc word state
    if goes then
      let next := machine.perform word
      (next.isRunning, next, state)
    else (false, machine, state)

/-- Instructions left below the ceiling. -/
def budget (machine : Machine κ φ τ) : Nat :=
  (machine.config.maxInstructions - machine.executed).toNat

def stepsFor [Console κ] [FileStore φ] [Clock τ] {η : Type} (hook : Hook η) :
    Nat → η → Machine κ φ τ → Machine κ φ τ × η
  | 0, state, machine => (machine, state)
  | steps + 1, state, machine =>
    match machine.stepWatched hook state with
    | (true, next, state) => stepsFor hook steps state next
    | (false, next, state) => (next, state)

def noteEnd (machine : Machine κ φ τ) : Machine κ φ τ :=
  machine.note .info
    ("run ended " ++ machine.status.name ++ " after " ++ toString machine.executed ++
      " instructions")

/-- Steps until the machine halts, faults or is stopped by the hook. -/
def runWatched [Console κ] [FileStore φ] [Clock τ] {η : Type} (hook : Hook η) (state : η)
    (machine : Machine κ φ τ) : Machine κ φ τ × η :=
  let (machine, state) := stepsFor hook (machine.budget + 1) state machine
  (machine.noteEnd, state)

/-- The hook that never stops a run. -/
def unwatched : Hook Unit := fun _ _ state ↦ (true, state)

def run [Console κ] [FileStore φ] [Clock τ] (machine : Machine κ φ τ) : Machine κ φ τ :=
  (machine.runWatched unwatched ()).1

/-- Writes a visible framebuffer to the console. -/
def flush [Console κ] (machine : Machine κ φ τ) : Except DeviceError Unit × Machine κ φ τ :=
  if machine.world.screen.isActive then
    let reply := Console.write machine.world.screen.ansi machine.world.host.console
    (reply.1,
      { machine with
        world := { machine.world with host := { machine.world.host with console := reply.2 } } })
  else (.ok (), machine)

/-- A run followed by a flush, with the failure of the flush if it fails. -/
def runAndShow [Console κ] [FileStore φ] [Clock τ] {η : Type} (hook : Hook η) (state : η)
    (machine : Machine κ φ τ) : Except DeviceError Unit × Machine κ φ τ × η :=
  let (machine, state) := machine.runWatched hook state
  let (answer, machine) := machine.flush
  (answer, machine, state)

end Machine

end MiniA64
