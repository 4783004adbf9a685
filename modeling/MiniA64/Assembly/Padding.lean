import MiniA64.Assembly.Statement
import MiniA64.Assembly.SymbolTable

/-!
# Padding

Runs of one byte, which fill the code up to an alignment or reserve space. Their sizes have to
be known when addresses are assigned, so they are constants: numbers, or symbols that are bound
as constants by then.
-/

namespace MiniA64

/-- How large a program may become. -/
structure Limits where
  /-- Bytes of code and data. -/
  capacity : Int := 5120
  symbols : Int := 64
  nodes : Int := 4096
  deriving DecidableEq, Repr

structure Padding where
  count : Nat
  fill : UInt8
  deriving DecidableEq, Repr

namespace Padding

def bytes (padding : Padding) : List UInt8 := List.replicate padding.count padding.fill

def refuse {α : Type} (location : Location) (error : DirectiveError) : Except Diagnostic α :=
  .error ((AssemblyError.directive error).locatedAt location)

def constant (symbols : SymbolTable) (what : String) (argument : Operand) :
    Except Diagnostic Int :=
  let known? := match argument.kind with
    | .immediate value => some value
    | .symbol name => symbols.constant? name
    | _ => none
  match known? with
  | some value => .ok value
  | none => refuse argument.location (.notConstant what)

/-- The fill byte, zero if it is left out. -/
def fillOf (symbols : SymbolTable) : Option Operand → Except Diagnostic UInt8
  | none => .ok 0
  | some argument => return UInt8.ofNat (BitVec.ofInt 8 (← constant symbols "fill" argument)).toNat

/-- A size or an alignment, and the fill. -/
def arguments? : List Operand → Option (Operand × Option Operand)
  | [size] => some (size, none)
  | [size, fill] => some (size, some fill)
  | _ => none

def isPowerOfTwo (value : Nat) : Bool := value ≠ 0 && value &&& (value - 1) = 0

/-- The boundary that an alignment names, in bytes or as a power of two. -/
def boundary (directive : Directive) (location : Location) (amount : Int) :
    Except Diagnostic Nat :=
  if directive = .balign then
    if 0 < amount ∧ isPowerOfTwo amount.toNat then .ok amount.toNat
    else refuse location .notPowerOfTwo
  else if 0 ≤ amount ∧ amount ≤ 12 then .ok (2 ^ amount.toNat)
  else refuse location (.alignmentRange directive.name)

/-- The distance from an address to the next multiple of a boundary. -/
def distance (address boundary : Nat) : Nat := (-(address : Int) % boundary).toNat

def ofAlignment (symbols : SymbolTable) (directive : Directive) (location : Location)
    (arguments : List Operand) (address : Nat) : Except Diagnostic Padding :=
  match arguments? arguments with
  | none => refuse location (.alignmentArguments directive.name)
  | some (size, fill) => do
    let amount ← constant symbols "alignment" size
    let boundary ← boundary directive location amount
    let fill ← fillOf symbols fill
    return ⟨distance address boundary, fill⟩

def ofSpace (symbols : SymbolTable) (location : Location) (arguments : List Operand) :
    Except Diagnostic Padding :=
  match arguments? arguments with
  | none => refuse location .spaceArguments
  | some (size, fill) => do
    let count ← constant symbols "size" size
    if count < 0 then refuse location .negativeSpace
    else return ⟨count.toNat, ← fillOf symbols fill⟩

end Padding

end MiniA64
