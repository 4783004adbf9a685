import MiniA64.Isa.Condition
import MiniA64.Isa.Register

/-!
# The register file

Thirty-one general registers of 64 bits, the stack pointer, the program counter and the flags.
Stack pointer and program counter are integers: the machine itself stores only values below
2^64 in them, but they can be set from outside to any integer, and an address that is not
mapped is then noticed as such instead of being reduced to one that is.
-/

namespace MiniA64

structure Registers where
  general : Vector (BitVec 64) 31
  sp : Int
  pc : Int
  flags : Flags
  deriving DecidableEq

namespace Registers

def wrap (value : Int) : Int := value % 2 ^ 64

/-- All zero, with the stack pointer given. -/
def initial (sp : Int) : Registers :=
  { general := Vector.replicate 31 0, sp := wrap sp, pc := 0, flags := Flags.clear }

/-- Register 31 reads as zero. -/
def read (registers : Registers) (reg : Reg) : BitVec 64 :=
  if h : reg.toNat < 31 then registers.general[reg.toNat] else 0

/-- Register 31 is the stack pointer. -/
def readSp (registers : Registers) (reg : Reg) : BitVec 64 :=
  if reg = Reg.special then BitVec.ofInt 64 registers.sp else registers.read reg

/-- A write to register 31 is dropped. -/
def write (registers : Registers) (reg : Reg) (value : BitVec 64) : Registers :=
  if h : reg.toNat < 31 then
    { registers with general := registers.general.set reg.toNat value }
  else registers

/-- A write to register 31 goes to the stack pointer. -/
def writeSp (registers : Registers) (reg : Reg) (value : BitVec 64) : Registers :=
  if reg = Reg.special then { registers with sp := value.toNat } else registers.write reg value

/-- The low bits of a register at an operand width. -/
def readAt (registers : Registers) (width : Width) (reg : Reg) : BitVec width.bits :=
  (registers.read reg).setWidth width.bits

def readSpAt (registers : Registers) (width : Width) (reg : Reg) : BitVec width.bits :=
  (registers.readSp reg).setWidth width.bits

/-- A narrow result clears the upper half of its register. -/
def writeAt (registers : Registers) (width : Width) (reg : Reg) (value : BitVec width.bits) :
    Registers :=
  registers.write reg (value.setWidth 64)

def writeSpAt (registers : Registers) (width : Width) (reg : Reg) (value : BitVec width.bits) :
    Registers :=
  registers.writeSp reg (value.setWidth 64)

end Registers

end MiniA64
