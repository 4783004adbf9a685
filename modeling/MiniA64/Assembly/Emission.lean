import MiniA64.Assembly.Layout
import MiniA64.Isa.Encoding

/-!
# Emission

With all symbols known, the statements are turned into bytes from the first one on. Each piece
of code or data is one entry of the listing, also an empty one.
-/

namespace MiniA64

structure ListingEntry where
  address : Nat
  data : List UInt8
  location : Location
  deriving DecidableEq, Repr

structure Emission where
  code : Array UInt8
  listing : Array ListingEntry
  deriving DecidableEq, Repr

namespace Emission

def empty : Emission := ⟨#[], #[]⟩

/-- The address of what comes next. -/
def address (emission : Emission) : Nat := emission.code.size

def fits (limits : Limits) (emission : Emission) (size : Nat) : Bool :=
  emission.address + size ≤ limits.capacity

def overflow {α : Type} (limits : Limits) (location : Location) : Except Diagnostic α :=
  .error ((AssemblyError.codeBufferOverflow limits.capacity).locatedAt location)

def append (emission : Emission) (location : Location) (data : List UInt8) : Emission :=
  ⟨emission.code ++ data, emission.listing.push ⟨emission.address, data, location⟩⟩

def emit (limits : Limits) (emission : Emission) (location : Location) (data : List UInt8) :
    Except Diagnostic Emission :=
  if emission.fits limits data.length then .ok (emission.append location data)
  else overflow limits location

/-- Emits padding, which is made only if there is room for it. -/
def emitPadding (limits : Limits) (emission : Emission) (location : Location)
    (padding : Padding) : Except Diagnostic Emission :=
  if emission.fits limits padding.count then .ok (emission.append location padding.bytes)
  else overflow limits location

def instruction (limits : Limits) (symbols : SymbolTable) (emission : Emission)
    (location : Location) (mnemonic : Mnemonic) (spelling : String) (operands : List Operand) :
    Except Diagnostic Emission := do
  let site : Site := ⟨symbols, emission.address, location, spelling⟩
  let instruction ← mnemonic.select site operands
  emission.emit limits location (Word.toBytes instruction.encode)

/-- Takes the arguments of a directive one by one. There has to be at least one. -/
def each (limits : Limits) (emission : Emission) (location : Location) (absent : DirectiveError)
    (arguments : List Operand) (data : Operand → Except Diagnostic (List UInt8)) :
    Except Diagnostic Emission :=
  if arguments.isEmpty then Padding.refuse location absent
  else
    arguments.foldlM (fun emission argument ↦ do
      emission.emit limits argument.location (← data argument)) emission

def emitValues (limits : Limits) (symbols : SymbolTable) (emission : Emission)
    (location : Location) (width : Nat) (arguments : List Operand) :
    Except Diagnostic Emission :=
  emission.each limits location .noValues arguments (Data.ofValue symbols width)

/-- Names have been dealt with in the layout and emit nothing. -/
def directive (limits : Limits) (symbols : SymbolTable) (emission : Emission)
    (location : Location) (name : Directive) (arguments : List Operand) :
    Except Diagnostic Emission :=
  match name with
  | .text | .data | .bss | .external | .global | .globl | .equ | .set => .ok emission
  | .namedSection => do
    Layout.checkSection location arguments
    return emission
  | .align | .balign | .p2align => do
    let padding ← Padding.ofAlignment symbols name location arguments emission.address
    if padding.count = 0 then return emission
    else emission.emitPadding limits location padding
  | .byte => emission.emitValues limits symbols location 1 arguments
  | .hword => emission.emitValues limits symbols location 2 arguments
  | .word => emission.emitValues limits symbols location 4 arguments
  | .quad => emission.emitValues limits symbols location 8 arguments
  | .ascii | .asciz | .string =>
    emission.each limits location .noStrings arguments (Data.ofString name)
  | .space | .skip => do
    emission.emitPadding limits location (← Padding.ofSpace symbols location arguments)

def statement (limits : Limits) (symbols : SymbolTable) (emission : Emission)
    (statement : Statement) : Except Diagnostic Emission :=
  match statement.kind with
  | .label _ => .ok emission
  | .instruction mnemonic spelling operands =>
    emission.instruction limits symbols statement.location mnemonic spelling operands
  | .directive name arguments =>
    emission.directive limits symbols statement.location name arguments

/-- The code and the listing of a whole program. -/
def ofStatements (limits : Limits) (symbols : SymbolTable) (statements : List Statement) :
    Except Diagnostic Emission :=
  statements.foldlM (statement limits symbols) empty

end Emission

end MiniA64
