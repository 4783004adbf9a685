import MiniA64.Machine.Registers
import MiniA64.Machine.World

/-!
# The machine

Registers, the world of the program and the state of the run. A faulted machine knows its
fault. Loading a program starts afresh: all but the host is reset.
-/

namespace MiniA64

inductive Status
  | running
  | halted
  | faulted (fault : Fault)
  deriving DecidableEq, Repr

namespace Status

def name : Status → String
  | running => "running"
  | halted => "halted"
  | faulted _ => "faulted"

def fault? : Status → Option Fault
  | faulted fault => some fault
  | _ => none

end Status

structure Machine (κ φ τ : Type) where
  config : Config
  world : World κ φ τ
  registers : Registers
  status : Status
  /-- Instructions completed; the one that halts is not counted. -/
  executed : Nat
  /-- Calls that have not returned. -/
  depth : Int

namespace Machine

variable {κ φ τ : Type}

def initialRegisters (memory : Memory) : Registers := .initial (memory.base + memory.size)

/-- Clears the registers and the state of the run, and starts again at address zero. -/
def reset (machine : Machine κ φ τ) : Machine κ φ τ :=
  { machine with
    registers := initialRegisters machine.world.memory
    status := .running
    executed := 0
    depth := 0 }

def ofMemory (config : Config) (memory : Memory) (host : Host κ φ τ) (log : Array LogRecord) :
    Machine κ φ τ :=
  { config
    world :=
      { memory
        screen := Framebuffer.new config.defaultCanvas config.maxCanvas
        seed := config.seed
        host
        log }
    registers := initialRegisters memory
    status := .running
    executed := 0
    depth := 0 }

/-- A new machine, on a host that has so many bytes left for its memory. -/
def new (available : Int) (config : Config) (host : Host κ φ τ) :
    Except MemoryError (Machine κ φ τ) :=
  (Memory.new available config.memorySize config.addressBase).map fun memory ↦
    ofMemory config memory host #[]

/-- Puts a program into memory and resets all but the host. -/
def load (code : List UInt8) (machine : Machine κ φ τ) : Except MemoryError (Machine κ φ τ) :=
  (machine.world.memory.load code).map fun memory ↦
    let records : Array LogRecord :=
      #[⟨.debug, "armlet.emulator.memory", "loaded " ++ toString code.length ++ " bytes"⟩,
        ⟨.info, "armlet.emulator.emulator",
          "loaded program of " ++ toString code.length ++ " bytes"⟩]
    ofMemory machine.config memory machine.world.host (machine.world.log ++ records)

def isRunning (machine : Machine κ φ τ) : Bool := machine.status = .running

def note (machine : Machine κ φ τ) (level : LogLevel) (message : String) : Machine κ φ τ :=
  { machine with world := machine.world.note level "armlet.emulator.cpu" message }

/-- Ends the run with a fault at the current instruction. -/
def raise (machine : Machine κ φ τ) (cause : FaultCause) : Machine κ φ τ :=
  let fault : Fault := ⟨cause, machine.registers.pc⟩
  { machine with status := .faulted fault }.note .warning ("execution fault: " ++ fault.text)

def halt (machine : Machine κ φ τ) : Machine κ φ τ := { machine with status := .halted }

/-- A one-line description of the state of the run. -/
def describe (machine : Machine κ φ τ) : String :=
  "Emulator(state=" ++ machine.status.name ++ ", pc=0x" ++
    Text.hexUpper 4 machine.registers.pc ++ ", instructions=" ++ toString machine.executed ++ ")"

end Machine

end MiniA64
