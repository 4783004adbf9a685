import MiniA64.Host.Basic
import MiniA64.Machine.Framebuffer
import MiniA64.Text.IntegerLiteral

/-!
# Configuration of a machine

Sizes and limits of one machine. Four of them can be set by environment variables, which hold
integer literals; a variable that does not is ignored with a warning.
-/

namespace MiniA64

structure Config where
  memorySize : Int := 5120
  /-- The number of instructions after which a run faults. -/
  maxInstructions : Int := 10000
  addressBase : Int := 0
  seed : Int := 12345
  /-- The size of a framebuffer that appears with the first drawing. -/
  defaultCanvas : CanvasSize := ⟨40, 12⟩
  maxCanvas : CanvasSize := ⟨80, 24⟩
  /-- The buffer size of line input when the program gives none. -/
  lineDefault : Int := 64
  lineLimit : Int := 256
  /-- The longest file name read from memory. -/
  nameLimit : Int := 63
  deriving DecidableEq, Repr

namespace Config

/-- The variables that set a field, in the order in which they are read. -/
def settings : List (String × (Int → Config → Config)) :=
  [("ARMLET_MEMORY_SIZE", fun value config ↦ { config with memorySize := value }),
    ("ARMLET_MAX_INSTRUCTIONS", fun value config ↦ { config with maxInstructions := value }),
    ("ARMLET_ADDRESS_BASE", fun value config ↦ { config with addressBase := value }),
    ("ARMLET_RNG_SEED", fun value config ↦ { config with seed := value })]

def ignored (name raw : String) : LogRecord :=
  ⟨.warning, "armlet.emulator.config",
    "ignoring " ++ name ++ "=" ++ Text.quoted raw ++ ": not an integer"⟩

/-- Reads one variable. An empty value counts as none. -/
def readVariable (environment : List (String × String)) (state : Config × List LogRecord)
    (entry : String × (Int → Config → Config)) : Config × List LogRecord :=
  match environment.lookup entry.1 with
  | none => state
  | some raw =>
    if raw.isEmpty then state
    else
      match Text.integer? raw with
      | some value => (entry.2 value state.1, state.2)
      | none => (state.1, state.2 ++ [ignored entry.1 raw])

def ofEnvironment (environment : List (String × String)) : Config × List LogRecord :=
  settings.foldl (readVariable environment) ({}, [])

end Config

end MiniA64
