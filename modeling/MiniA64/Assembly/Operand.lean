import MiniA64.Isa.Instruction

/-!
# Operands

What stands after a mnemonic or a directive. A name that is neither a register nor a shift is a
symbol; the instruction decides whether it is used as an address, a constant or an option.
-/

namespace MiniA64

/-- How the address is formed from the base register of a memory operand. -/
inductive MemoryForm
  | offset (bytes : Int)
  | index (register : Reg)
  | preIndex (bytes : Int)
  | postIndex (bytes : Int)
  deriving DecidableEq, Repr, Inhabited

structure MemoryOperand where
  base : Reg
  form : MemoryForm
  deriving DecidableEq, Repr, Inhabited

inductive OperandKind
  | register (name : RegisterName)
  | immediate (value : Int)
  | symbol (name : String)
  | memory (operand : MemoryOperand)
  | shift (kind : ShiftKind) (amount : Int)
  | string (raw : String)
  deriving DecidableEq, Repr

end MiniA64
