import MiniA64.Host.Error
import MiniA64.Isa.Word
import MiniA64.Text.Radix

/-!
# Faults

Why a run stops without halting, and where.
-/

namespace MiniA64

inductive FaultCause
  | instructionLimit (limit : Int)
  | misaligned
  | unknownInstruction (word : Word)
  | invalidTransfer
  | unknownService (number : Int)
  | consoleWrite (error : DeviceError)
  | consoleRead (error : DeviceError)
  deriving DecidableEq, Repr

def FaultCause.message : FaultCause → String
  | instructionLimit limit => "instruction limit exceeded (" ++ toString limit ++ ")"
  | misaligned => "misaligned pc"
  | unknownInstruction word =>
    "unknown instruction 0x" ++ Text.padLeft 8 (Text.lowerDigits word.toNat)
  | invalidTransfer => "invalid load/store form"
  | unknownService number => "Unknown SVC #0x" ++ Text.hexLower 0 number
  | consoleWrite error => "console write failed: " ++ error.message
  | consoleRead error => "console read failed: " ++ error.message

structure Fault where
  cause : FaultCause
  pc : Int
  deriving DecidableEq, Repr

namespace Fault

/-- A description with the place in front of it. -/
def describe (pc : Int) (message : String) : String :=
  "pc=0x" ++ Text.hexLower 4 pc ++ ": " ++ message

def text (fault : Fault) : String := describe fault.pc fault.cause.message

end Fault

end MiniA64
