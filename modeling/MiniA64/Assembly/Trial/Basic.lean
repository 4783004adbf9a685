import MiniA64.Assembly.Selection
import MiniA64.Isa.Word

/-!
# Trials

Steps of an assembly with the partial operations that a host language has for them. An operand is
a node of any kind, and a node has no answer when it is asked for an attribute that nodes of its
kind lack. Neither has a list at an index past its end, a table for a key that it does not hold, or
an option that holds nothing. Where one of these is needed the trial lapses, which is not the same
as being refused with a diagnostic. A trial also lapses at a limit of the host: at a decimal number
that is too long to be read, at one that is too long for the message of a diagnostic, and at calls
that are nested too deep.

An operand is asked for its attributes when they are used, and its kind is looked at where the
selection looks at it.
-/

namespace MiniA64

/-- A limit of the host. -/
inductive Limit
  /-- A decimal number is not read that has so many digits. -/
  | digits (count : Nat)
  | printing
  | nesting
  deriving DecidableEq, Repr

def Limit.message : Limit → String
  | digits count => (Text.NumeralError.tooLong count).message
  | printing => Text.tooManyDigits ""
  | nesting => "maximum recursion depth exceeded"

/-- Why a trial lapses. -/
inductive Lapse
  | index
  | key
  | attribute (name : String)
  | unpacking
  | missing
  | literal (digits : String)
  | byte
  | overflow
  | shift
  | modulus
  | endless
  | limit (limit : Limit)
  deriving DecidableEq, Repr

/-- How a trial ends that has no result. -/
inductive Raised
  | diagnostic (diagnostic : Diagnostic)
  | lapse (lapse : Lapse)

/-- What is raised for a diagnostic, whose message has to be written first. -/
def Raised.of (diagnostic : Diagnostic) : Raised :=
  if diagnostic.error.IsPrintable then .diagnostic diagnostic else .lapse (.limit .printing)

abbrev Trial := Except Raised

namespace Trial

/-! ## Partial operations -/

def lapse {α : Type} (reason : Lapse) : Trial α := .error (.lapse reason)

/-- Ends with a diagnostic if a step does, and lapses if its message cannot be written. -/
def settle {α : Type} (step : Except Diagnostic α) : Trial α := step.mapError .of

def orLapse {α : Type} (reason : Lapse) : Option α → Trial α
  | some value => .ok value
  | none => lapse reason

def item {α : Type} (items : List α) (index : Nat) : Trial α := orLapse .index items[index]?

/-- What a table holds for a key. -/
def entry {α β : Type} [BEq α] (table : List (α × β)) (key : α) : Trial β :=
  orLapse .key (table.lookup key)

def hasKey {α β : Type} [BEq α] (table : List (α × β)) (key : α) : Bool :=
  (table.lookup key).isSome

/-- Three names for the items of a list. -/
def unpack {α : Type} : List α → Trial (α × α × α)
  | [first, second, third] => .ok (first, second, third)
  | _ => lapse .unpacking

def modulo (value modulus : Int) : Trial Int :=
  if modulus = 0 then lapse .modulus else .ok (value % modulus)

def powerOfTwo (count : Int) : Trial Int :=
  if 0 ≤ count then .ok (2 ^ count.toNat) else lapse .shift

def byte (value : Int) : Trial UInt8 :=
  if 0 ≤ value ∧ value < 256 then .ok (UInt8.ofNat value.toNat) else lapse .byte

/-- A number in a count of bytes, least significant first. -/
def pack (width : Nat) (value : Int) : Trial (List UInt8) :=
  if 0 ≤ value ∧ value < 256 ^ width then .ok (toLittleEndian width value.toNat)
  else lapse .overflow

/-! ## Nodes -/

/-- An operand whose kind is found out when it is used. -/
structure Node where
  kind : OperandKind
  location : Location

namespace Node

def register? (node : Node) : Option RegisterName :=
  match node.kind with
  | .register name => some name
  | _ => none

def immediate? (node : Node) : Option Int :=
  match node.kind with
  | .immediate value => some value
  | _ => none

def symbol? (node : Node) : Option String :=
  match node.kind with
  | .symbol name => some name
  | _ => none

def memory? (node : Node) : Option MemoryOperand :=
  match node.kind with
  | .memory operand => some operand
  | _ => none

def shift? (node : Node) : Option (ShiftKind × Int) :=
  match node.kind with
  | .shift kind amount => some (kind, amount)
  | _ => none

def string? (node : Node) : Option String :=
  match node.kind with
  | .string raw => some raw
  | _ => none

def isRegister (node : Node) : Bool := node.register?.isSome

def isImmediate (node : Node) : Bool := node.immediate?.isSome

def isSymbol (node : Node) : Bool := node.symbol?.isSome

def isMemory (node : Node) : Bool := node.memory?.isSome

def isShift (node : Node) : Bool := node.shift?.isSome

def isString (node : Node) : Bool := node.string?.isSome

def number (node : Node) : Trial Reg :=
  orLapse (.attribute "number") (node.register?.map RegisterName.number)

def width (node : Node) : Trial Width :=
  orLapse (.attribute "is_64bit") (node.register?.map RegisterName.width)

def isStackPointer (node : Node) : Trial Bool :=
  orLapse (.attribute "is_sp") (node.register?.map RegisterName.isStackPointer)

def isZero (node : Node) : Trial Bool :=
  orLapse (.attribute "is_zr") (node.register?.map RegisterName.isZero)

def value (node : Node) : Trial Int := orLapse (.attribute "value") node.immediate?

def raw (node : Node) : Trial String := orLapse (.attribute "value") node.string?

def name (node : Node) : Trial String := orLapse (.attribute "name") node.symbol?

def shiftKind (node : Node) : Trial ShiftKind :=
  orLapse (.attribute "kind") (node.shift?.map Prod.fst)

def amount (node : Node) : Trial Int :=
  orLapse (.attribute "amount") (node.shift?.map Prod.snd)

def base (node : Node) : Trial Reg :=
  orLapse (.attribute "base") (node.memory?.map MemoryOperand.base)

def form (node : Node) (name : String) : Trial MemoryForm :=
  orLapse (.attribute name) (node.memory?.map MemoryOperand.form)

def index (node : Node) : Trial (Option Reg) := do
  match ← node.form "index" with
  | .index register => return some register
  | _ => return none

/-- The offset of a memory operand, zero if it has an index. -/
def offset (node : Node) : Trial Int := do
  match ← node.form "offset" with
  | .offset bytes | .preIndex bytes | .postIndex bytes => return bytes
  | .index _ => return 0

def isPreIndex (node : Node) : Trial Bool := do
  match ← node.form "pre_index" with
  | .preIndex _ => return true
  | _ => return false

def isPostIndex (node : Node) : Trial Bool := do
  match ← node.form "post_index" with
  | .postIndex _ => return true
  | _ => return false

end Node

/-! ## Operands -/

def refuse {α : Type} (location : Location) (error : OperandError) : Trial α :=
  settle (Selection.refuse location error)

def outOfRange {α : Type} (location : Location) (value : Int) (slot : ImmediateSlot) : Trial α :=
  settle (Selection.outOfRange location value slot)

/-- There have to be as many operands as one of the counts. -/
def expect (site : Site) (operands : List Node) (counts : List Nat) : Trial Unit :=
  if operands.length ∈ counts then .ok ()
  else refuse site.location (.count site.spelling counts operands.length)

def register (node : Node) : Trial Node :=
  if node.isRegister then .ok node else refuse node.location (.expected .register)

/-- A register where number 31 is the zero register. -/
def dataRegister (node : Node) : Trial Node := do
  let register ← register node
  if ← register.isStackPointer then refuse register.location .stackPointer
  else return register

/-- A register where number 31 is the stack pointer. -/
def stackRegister (node : Node) : Trial Node := do
  let register ← register node
  if ← register.isZero then refuse register.location .zeroRegister
  else return register

/-- The register form takes no stack pointer. -/
def registerForm (register : Node) : Trial Unit := do
  if ← register.isStackPointer then refuse register.location .stackPointerInRegisterForm
  else return ()

/-- The width of the first register, if all have one width. -/
def sameWidth (site : Site) (registers : List Node) : Trial Width := do
  let widths ← registers.mapM Node.width
  if widths.eraseDups.length ≠ 1 then refuse site.location .mixedWidths
  else do
    let first ← item registers 0
    first.width

def valueOf (symbols : SymbolTable) (node : Node) (what : Expected) : Trial Int :=
  if node.isImmediate then node.value
  else if node.isSymbol then do
    let name ← node.name
    settle (symbols.resolve name node.location)
  else refuse node.location (.expected what)

def optionalShift (operands : List Node) (index : Nat) : Trial (Option Node) :=
  if index < operands.length then do
    let node ← item operands index
    if node.isShift then return some node else refuse node.location (.expected .shift)
  else return none

/-- The first source, the second one and what is left; the first one may be the destination. -/
def sources (read : Node → Trial Node) (destination : Node) (operands : List Node) :
    Trial (Node × Node × List Node) := do
  let both ←
    if operands.length = 2 then pure true
    else if operands.length = 3 then do
      let last ← item operands 2
      pure last.isShift
    else pure false
  if both then do
    let second ← item operands 1
    return (destination, second, operands.drop 2)
  else do
    let first ← item operands 1
    let first ← read first
    let second ← item operands 2
    return (first, second, operands.drop 3)

end Trial

/-- An operand without its number in the tree. -/
def Operand.node (operand : Operand) : Trial.Node := ⟨operand.kind, operand.location⟩

namespace RegisterOperand

def node (register : RegisterOperand) : Trial.Node := ⟨.register register.name, register.location⟩

end RegisterOperand

namespace ShiftOperand

def node (shift : ShiftOperand) : Trial.Node :=
  ⟨.shift shift.kind shift.amount, shift.location⟩

end ShiftOperand

end MiniA64
