import MiniA64.Assembly.Data
import MiniA64.Host.Basic

/-!
# Layout

Addresses are assigned before any code is made. Every instruction takes four bytes, so a walk
over the statements in order finds the address of each label, and binds the constants on the
way. A symbol that pads or reserves space has to be bound before it is used.

A walk that fails tells how far it came, because the symbols bound so far stay visible.
-/

namespace MiniA64

structure Layout where
  symbols : SymbolTable
  /-- The number of bytes so far, which is the address of what comes next. -/
  size : Nat
  log : List LogRecord
  deriving Repr

structure LayoutFailure where
  diagnostic : Diagnostic
  reached : Layout

namespace Layout

abbrev Walk (α : Type) := Except LayoutFailure α

def empty : Layout := ⟨.empty, 0, []⟩

/-- A step that fails leaves the layout as it is. -/
def attempt {α : Type} (layout : Layout) (step : Except Diagnostic α) : Walk α :=
  step.mapError fun diagnostic ↦ ⟨diagnostic, layout⟩

/-- Makes room for bytes. -/
def advance (limits : Limits) (layout : Layout) (location : Location) (size : Nat) :
    Except Diagnostic Layout :=
  if limits.capacity < layout.size + size then
    .error ((AssemblyError.codeBufferOverflow limits.capacity).locatedAt location)
  else .ok { layout with size := layout.size + size }

def note (layout : Layout) (name : String) (value : Int) : Layout :=
  let message := "define " ++ name ++ " = 0x" ++ Text.hexLower 0 value
  { layout with log := layout.log ++ [⟨.debug, "armlet.assembler.codegen", message⟩] }

def define (limits : Limits) (layout : Layout) (name : String) (value : Int)
    (location : Location) (binding : SymbolTable.Binding) : Except Diagnostic Layout := do
  let symbols ← layout.symbols.define limits.symbols name value location binding
  return { layout with symbols }.note name value

def declare (limits : Limits) (layout : Layout) (argument : Operand) :
    Except Diagnostic Layout :=
  match argument.kind with
  | .symbol name => do
    let symbols ← layout.symbols.declare limits.symbols name argument.location
    return { layout with symbols }
  | _ => Padding.refuse argument.location .symbolName

/-- A constant that `set` binds may be bound again. -/
def bind (limits : Limits) (layout : Layout) (directive : Directive) (location : Location)
    (arguments : List Operand) : Except Diagnostic Layout :=
  match arguments with
  | [⟨_, _, .symbol name⟩, argument] => do
    let value ← match argument.kind with
      | .immediate value => .ok value
      | .symbol other => layout.symbols.resolve other argument.location
      | _ => Selection.refuse argument.location (.expected .constantValue)
    define limits layout name value location
      (if directive = .set then .variable else .constant)
  | _ => Padding.refuse location (.constantArguments directive.name)

/-- Takes the arguments of a directive one by one. There has to be at least one. -/
def each (layout : Layout) (location : Location) (absent : DirectiveError)
    (arguments : List Operand) (step : Layout → Operand → Except Diagnostic Layout) :
    Walk Layout :=
  if arguments.isEmpty then layout.attempt (Padding.refuse location absent)
  else arguments.foldlM (fun layout argument ↦ layout.attempt (step layout argument)) layout

/-- Alignment that is reached already takes no room and none is asked for. -/
def align (limits : Limits) (layout : Layout) (directive : Directive) (location : Location)
    (arguments : List Operand) : Except Diagnostic Layout := do
  let padding ← Padding.ofAlignment layout.symbols directive location arguments layout.size
  if padding.count = 0 then return layout else layout.advance limits location padding.count

def reserve (limits : Limits) (layout : Layout) (location : Location)
    (arguments : List Operand) : Except Diagnostic Layout := do
  let padding ← Padding.ofSpace layout.symbols location arguments
  layout.advance limits location padding.count

def placeString (limits : Limits) (layout : Layout) (directive : Directive)
    (argument : Operand) : Except Diagnostic Layout := do
  let data ← Data.ofString directive argument
  layout.advance limits argument.location data.length

/-- A section has to have a name, which makes no difference to the code. -/
def checkSection (location : Location) : List Operand → Except Diagnostic Unit
  | ⟨_, _, .symbol _⟩ :: _ => .ok ()
  | _ => Padding.refuse location .sectionName

/-- The values of a data directive, whose size alone matters here. -/
def placeValues (limits : Limits) (layout : Layout) (location : Location) (width : Nat)
    (arguments : List Operand) : Walk Layout :=
  layout.each location .noValues arguments fun layout argument ↦
    layout.advance limits argument.location width

def directive (limits : Limits) (layout : Layout) (name : Directive) (location : Location)
    (arguments : List Operand) : Walk Layout :=
  match name with
  | .text | .data | .bss | .external => .ok layout
  | .namedSection => do
    layout.attempt (checkSection location arguments)
    return layout
  | .global | .globl => layout.each location .noGlobals arguments (declare limits)
  | .equ | .set => layout.attempt (layout.bind limits name location arguments)
  | .align | .balign | .p2align => layout.attempt (layout.align limits name location arguments)
  | .byte => layout.placeValues limits location 1 arguments
  | .hword => layout.placeValues limits location 2 arguments
  | .word => layout.placeValues limits location 4 arguments
  | .quad => layout.placeValues limits location 8 arguments
  | .ascii | .asciz | .string =>
    layout.each location .noStrings arguments fun layout argument ↦
      layout.placeString limits name argument
  | .space | .skip => layout.attempt (layout.reserve limits location arguments)

def statement (limits : Limits) (layout : Layout) (statement : Statement) : Walk Layout :=
  match statement.kind with
  | .label name =>
    layout.attempt (layout.define limits name layout.size statement.location .label)
  | .instruction _ _ _ => layout.attempt (layout.advance limits statement.location 4)
  | .directive name arguments => layout.directive limits name statement.location arguments

/-- The layout of a whole program. -/
def ofStatements (limits : Limits) (statements : List Statement) : Walk Layout :=
  statements.foldlM (statement limits) empty

end Layout

end MiniA64
