import MiniA64.Assembly.Data
import MiniA64.Assembly.Trial.Basic

/-!
# Data by trial

The paddings and the bytes of a directive, found by trials. A fill is a byte, a boundary is a power
of two, a distance is a remainder, and a value is packed into a count of bytes: none of these has
a result for every number.
-/

namespace MiniA64

namespace Trial

/-- The value of a number, or of a symbol that is bound as a constant so far. -/
def known? (symbols : SymbolTable) (node : Node) : Trial (Option Int) :=
  if node.isImmediate then do
    let value ← node.value
    return some value
  else if node.isSymbol then do
    let name ← node.name
    return symbols.constant? name
  else return none

def constant (symbols : SymbolTable) (what : String) (node : Node) : Trial Int := do
  match ← known? symbols node with
  | some value => return value
  | none => settle (Padding.refuse node.location (.notConstant what))

/-- The fill byte, zero if it is left out. -/
def fill (symbols : SymbolTable) (arguments : List Node) : Trial UInt8 :=
  if arguments.length = 2 then do
    let argument ← item arguments 1
    let value ← constant symbols "fill" argument
    byte (value % 256)
  else byte 0

/-- A size or an alignment, and the fill, are one or two arguments. -/
def sized (arguments : List Node) : Bool := !arguments.isEmpty && arguments.length ≤ 2

def boundary (directive : Directive) (location : Location) (amount : Int) : Trial Int :=
  if directive = .balign then do
    let boundary ← settle (Padding.boundary directive location amount)
    return boundary
  else if 0 ≤ amount ∧ amount ≤ 12 then powerOfTwo amount
  else settle (Padding.refuse location (.alignmentRange directive.name))

def alignment (symbols : SymbolTable) (directive : Directive) (location : Location)
    (arguments : List Node) (address : Nat) : Trial Padding :=
  if sized arguments then do
    let size ← item arguments 0
    let amount ← constant symbols "alignment" size
    let boundary ← boundary directive location amount
    let fill ← fill symbols arguments
    let count ← modulo (-address) boundary
    return ⟨count.toNat, fill⟩
  else settle (Padding.refuse location (.alignmentArguments directive.name))

def space (symbols : SymbolTable) (location : Location) (arguments : List Node) :
    Trial Padding :=
  if sized arguments then do
    let size ← item arguments 0
    let count ← constant symbols "size" size
    if count < 0 then settle (Padding.refuse location .negativeSpace)
    else do
      let fill ← fill symbols arguments
      return ⟨count.toNat, fill⟩
  else settle (Padding.refuse location .spaceArguments)

/-- The bytes of one value of a data directive. -/
def valueBytes (symbols : SymbolTable) (width : Nat) (argument : Node) : Trial (List UInt8) := do
  let value ← valueOf symbols argument .numberOrSymbol
  if value < -2 ^ (8 * width - 1) ∨ 2 ^ (8 * width) ≤ value then
    outOfRange argument.location value (.data width)
  else pack width (value % 256 ^ width)

def stringBytes (directive : Directive) (argument : Node) : Trial (List UInt8) :=
  if argument.isString then do
    let raw ← argument.raw
    return StringLiteral.bytes raw ++ if directive = .ascii then [] else [0]
  else settle (Padding.refuse argument.location .notString)

/-- The widths of the values of data directives. -/
def dataWidths : List (Directive × Nat) := [(.byte, 1), (.hword, 2), (.word, 4), (.quad, 8)]

end Trial

end MiniA64
