import MiniA64.Host.Basic
import MiniA64.Machine.Config
import MiniA64.Machine.Fault
import MiniA64.Machine.Memory

/-!
# The world of a program

Everything a program can change besides its registers: memory, the framebuffer, the state of
the random numbers and the host. Rejected memory accesses are dropped and leave a log record.
-/

namespace MiniA64

structure World (κ φ τ : Type) where
  memory : Memory
  screen : Framebuffer
  seed : Int
  host : Host κ φ τ
  log : Array LogRecord

namespace World

variable {κ φ τ : Type}

def note (world : World κ φ τ) (level : LogLevel) (source message : String) : World κ φ τ :=
  { world with log := world.log.push ⟨level, source, message⟩ }

def noteDropped (world : World κ φ τ) (action : String) (length : Int) (address : Int) :
    World κ φ τ :=
  world.note .debug "armlet.emulator.memory"
    ("dropped " ++ action ++ " of " ++ toString length ++ " bytes at 0x" ++
      Text.hexLower 0 address)

def read (world : World κ φ τ) (address length : Int) : Option (List UInt8) × World κ φ τ :=
  match world.memory.read address length with
  | some data => (some data, world)
  | none => (none, world.noteDropped "read" length address)

def write (world : World κ φ τ) (address : Int) (data : List UInt8) : World κ φ τ :=
  match world.memory.translate address data.length with
  | some offset => { world with memory := world.memory.put offset data }
  | none => world.noteDropped "write" data.length address

/-- Writes to the console; a failure is the cause of a fault. -/
def print [Console κ] (world : World κ φ τ) (data : List UInt8) :
    Except FaultCause Unit × World κ φ τ :=
  let reply := Console.write data world.host.console
  (match reply.1 with
    | .ok _ => .ok ()
    | .error error => .error (.consoleWrite error),
    { world with host := { world.host with console := reply.2 } })

/-- Takes one byte of console input; a failure is the cause of a fault. -/
def input [Console κ] (world : World κ φ τ) : Except FaultCause (Option UInt8) × World κ φ τ :=
  let reply := Console.readByte world.host.console
  (match reply.1 with
    | .ok byte => .ok byte
    | .error error => .error (.consoleRead error),
    { world with host := { world.host with console := reply.2 } })

/-- The input that the console still holds. -/
def inputLeft [Console κ] (world : World κ φ τ) : Nat := Console.remaining world.host.console

theorem inputLeft_print [Console κ] (world : World κ φ τ) (data : List UInt8) :
    (world.print data).2.inputLeft ≤ world.inputLeft :=
  Console.remaining_write data world.host.console

@[simp] theorem inputLeft_note [Console κ] (world : World κ φ τ) (level : LogLevel)
    (source message : String) : (world.note level source message).inputLeft = world.inputLeft :=
  rfl

@[simp] theorem inputLeft_write [Console κ] (world : World κ φ τ) (address : Int)
    (data : List UInt8) : (world.write address data).inputLeft = world.inputLeft := by
  unfold write
  split <;> rfl

theorem inputLeft_input [Console κ] (world : World κ φ τ) (byte : UInt8)
    (h : world.input.1 = .ok (some byte)) : world.input.2.inputLeft < world.inputLeft := by
  have read : (Console.readByte world.host.console).1 = .ok (some byte) := by
    simp only [input] at h
    split at h
    · rename_i answer hanswer
      rw [hanswer, Except.ok.inj h]
    · cases h
  exact Console.remaining_readByte world.host.console byte read

/-- Runs a file operation. A failure leaves a warning and counts as zero. -/
def onFiles (world : World κ φ τ) (operation : φ → Reply φ Int) : Int × World κ φ τ :=
  let reply := operation world.host.files
  let world := { world with host := { world.host with files := reply.2 } }
  match reply.1 with
  | .ok value => (value, world)
  | .error error =>
    (0, world.note .warning "armlet.emulator.extended"
      ("file operation failed: " ++ error.message))

end World

end MiniA64
