import MiniA64.Host.Error

/-!
# The host of a machine

Services reach the outside world through three devices: a console, a store of named files and a
clock. Console and file operations may fail, and a failed operation may still change the device.
A console holds finitely much input: what remains shrinks with every byte read and never grows,
so a loop that reads until a line ends always ends.

What the components report beside their results goes to a log. A record names the component that
wrote it; whether it is shown is for the command line to decide.
-/

namespace MiniA64

inductive LogLevel
  | debug
  | info
  | warning
  deriving DecidableEq, Repr, Inhabited

def LogLevel.name : LogLevel → String
  | debug => "DEBUG"
  | info => "INFO"
  | warning => "WARNING"

structure LogRecord where
  level : LogLevel
  source : String
  message : String
  deriving DecidableEq, Repr

/-- The answer of a device and its state afterwards. -/
abbrev Reply (σ α : Type) := Except DeviceError α × σ

class Console (κ : Type) where
  write : List UInt8 → κ → Reply κ Unit
  /-- One byte of input, or none at its end. -/
  readByte : κ → Reply κ (Option UInt8)
  remaining : κ → Nat
  remaining_write : ∀ data console, remaining (write data console).2 ≤ remaining console
  remaining_readByte : ∀ console byte, (readByte console).1 = .ok (some byte) →
    remaining (readByte console).2 < remaining console

/-- Missing files and taken names are answers; errors are failures of the store itself. -/
class FileStore (φ : Type) where
  create : String → φ → Reply φ Bool
  write : String → List UInt8 → φ → Reply φ Unit
  read : String → φ → Reply φ (Option (List UInt8))
  delete : String → φ → Reply φ Bool
  contains : String → φ → Reply φ Bool

class Clock (τ : Type) where
  sleep : Int → τ → τ
  /-- Milliseconds since the start. -/
  uptime : τ → Int

/-- The three devices together. -/
structure Host (κ φ τ : Type) where
  console : κ
  files : φ
  clock : τ

end MiniA64
