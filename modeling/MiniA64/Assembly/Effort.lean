import MiniA64.Assembly.Generator
import MiniA64.Assembly.Pull
import MiniA64.Assembly.Trial.Data
import MiniA64.Assembly.Trial.Selection

/-!
# Efforts

The work of a generator, done by trials. The source is read by the parser that takes its tokens
while they are scanned, and reading lapses as endless if this parser has no answer. The walks look
each node up by its number before they use it, and the arguments of a directive are nodes of any
kind.

A diagnostic is handled where the generator handles it. A lapse is handled nowhere: it leaves the
generator as it was when the lapse happened, and ends the assembly.
-/

namespace MiniA64

namespace Trial

/-! ## Reading -/

/-- Reads a program, with room for so many calls of the parser within one another. -/
def read (depth : Nat) (source file : String) (capacity : Int) : Trial Program :=
  match Pull.parse depth source file capacity with
  | some (.ok program, _) => return program
  | some (.error refusal, _) => .error (refusal.toRaised source)
  | none => lapse .endless

/-! ## Nodes -/

/-- Looks a node up by its number. -/
def visit (program : Program) (slot : Nat) : Trial Unit :=
  if slot < program.nodes then return () else lapse .index

def node (program : Program) (operand : Operand) : Trial Node := do
  visit program operand.slot
  return operand.node

def nodes (program : Program) (operands : List Operand) : Trial (List Node) :=
  operands.mapM (node program)

end Trial

/-- What changes a generator and may end with a diagnostic or a lapse. -/
abbrev Effort (α : Type) := ExceptT Raised (StateM Generator) α

namespace Effort

open Generator (Work)

def ofWork {α : Type} (work : Work α) : Effort α :=
  ExceptT.mk do
    let answer ← work.run
    return answer.mapError .of

def ofTrial {α : Type} (trial : Trial α) : Effort α := ExceptT.mk (pure trial)

def refuse {α : Type} (location : Location) (error : DirectiveError) : Effort α :=
  ofTrial (Trial.settle (Padding.refuse location error))

/-! ## Symbols -/

def declare (argument : Trial.Node) : Effort Unit :=
  if argument.isSymbol then do
    let generator ← get
    let symbols ← ofTrial do
      let name ← argument.name
      Trial.settle (generator.symbols.declare generator.limits.symbols name argument.location)
    set { generator with symbols }
  else refuse argument.location .symbolName

/-- The arguments of a constant are its name and its value. -/
def isBinding (arguments : List Trial.Node) : Trial Bool :=
  if arguments.length = 2 then do
    let first ← Trial.item arguments 0
    return first.isSymbol
  else return false

/-- The name and the value of a constant. -/
def binding (symbols : SymbolTable) (arguments : List Trial.Node) : Trial (String × Int) := do
  let second ← Trial.item arguments 1
  let value ← Trial.valueOf symbols second .constantValue
  let first ← Trial.item arguments 0
  let name ← first.name
  return (name, value)

def defineConstant (directive : Directive) (location : Location) (arguments : List Trial.Node) :
    Effort Unit := do
  if ← ofTrial (isBinding arguments) then do
    let generator ← get
    let bound ← ofTrial (binding generator.symbols arguments)
    ofWork (Generator.define bound.1 bound.2 location
      (if directive = .set then .variable else .constant))
  else refuse location (.constantArguments directive.name)

/-! ## Bytes -/

def align (directive : Directive) (location : Location) (arguments : List Trial.Node) :
    Effort Unit := do
  let generator ← get
  let padding ← ofTrial
    (Trial.alignment generator.symbols directive location arguments generator.counter)
  if padding.count = 0 then return ()
  else ofWork (Generator.emit location padding.count fun _ ↦ padding.bytes)

def reserve (location : Location) (arguments : List Trial.Node) : Effort Unit := do
  let generator ← get
  let padding ← ofTrial (Trial.space generator.symbols location arguments)
  ofWork (Generator.emit location padding.count fun _ ↦ padding.bytes)

def placeValue (width : Nat) (argument : Trial.Node) : Effort Unit := do
  let generator ← get
  match generator.pass with
  | .first => ofWork (Generator.emit argument.location width fun _ ↦ List.replicate width 0)
  | .second => do
    let data ← ofTrial (Trial.valueBytes generator.symbols width argument)
    ofWork (Generator.emit argument.location data.length fun _ ↦ data)

def placeString (directive : Directive) (argument : Trial.Node) : Effort Unit := do
  let data ← ofTrial (Trial.stringBytes directive argument)
  ofWork (Generator.emit argument.location data.length fun _ ↦ data)

/-! ## Statements -/

def each (location : Location) (absent : DirectiveError) (arguments : List Trial.Node)
    (effort : Trial.Node → Effort Unit) : Effort Unit :=
  if arguments.isEmpty then refuse location absent else arguments.forM effort

def once (effort : Effort Unit) : Effort Unit := do
  let generator ← get
  match generator.pass with
  | .first => effort
  | .second => return ()

/-- A section is named by the first argument, which may begin with a dot. -/
def nameSection (location : Location) (arguments : List Trial.Node) : Effort Unit :=
  if arguments.isEmpty then refuse location .sectionName
  else do
    let first ← ofTrial (Trial.item arguments 0)
    if first.isSymbol then do
      let name ← ofTrial first.name
      ofWork (Generator.enterSection (String.ofList (name.toList.dropWhile (· = '.'))))
    else refuse location .sectionName

def directive (program : Program) (name : Directive) (location : Location)
    (arguments : List Operand) : Effort Unit := do
  let arguments ← ofTrial (Trial.nodes program arguments)
  match name with
  | .text | .data | .bss => ofWork (Generator.enterSection name.name)
  | .namedSection => nameSection location arguments
  | .external => return ()
  | .global | .globl => once (each location .noGlobals arguments declare)
  | .equ | .set => once (defineConstant name location arguments)
  | .align | .balign | .p2align => align name location arguments
  | .byte | .hword | .word | .quad => do
    let width ← ofTrial (Trial.entry Trial.dataWidths name)
    each location .noValues arguments (placeValue width)
  | .ascii | .asciz | .string => each location .noStrings arguments (placeString name)
  | .space | .skip => reserve location arguments

/-- The first pass on a statement. -/
def layOut (program : Program) (statement : Statement) : Effort Unit :=
  match statement.kind with
  | .label name => do
    let generator ← get
    ofWork (Generator.define name generator.counter statement.location .label)
  | .instruction _ _ _ => ofWork (Generator.advance statement.location 4)
  | .directive name arguments => directive program name statement.location arguments

/-- The second pass on a statement. -/
def encode (program : Program) (statement : Statement) : Effort Unit :=
  match statement.kind with
  | .label _ => return ()
  | .instruction mnemonic spelling operands => do
    let operands ← ofTrial (Trial.nodes program operands)
    let generator ← get
    let site : Site := ⟨generator.symbols, generator.counter, statement.location, spelling⟩
    let instruction ← ofTrial (Trial.select mnemonic site operands)
    let word ← ofTrial (Trial.pack 4 instruction.encode.toNat)
    ofWork (Generator.emit statement.location 4 fun _ ↦ word)
  | .directive name arguments => directive program name statement.location arguments

/-! ## Programs -/

/-- Looks up the statements of a program one after another. -/
def walk (program : Program) (step : Statement → Effort Unit) : Effort Unit := do
  ofTrial (Trial.visit program program.root)
  program.statements.forM fun statement ↦ do
    ofTrial (Trial.visit program statement.slot)
    step statement

def firstPass (program : Program) : Effort Unit := do
  ofWork (Generator.start .first)
  walk program (layOut program)
  let laid ← get
  ofWork (Generator.note .debug "armlet.assembler.codegen"
    ("pass 1 complete: " ++ toString laid.counter ++ " bytes, " ++
      toString laid.symbols.entries.length ++ " symbols"))
  ofWork Generator.noteUndefined

/-- Handles a diagnostic. -/
def orElse {α : Type} (effort : Effort α) (handle : Diagnostic → Effort α) : Effort α :=
  tryCatch effort fun raised ↦
    match raised with
    | .diagnostic diagnostic => handle diagnostic
    | .lapse reason => throw (.lapse reason)

def secondPass (program : Program) : Effort Unit := do
  ofWork (Generator.start .second)
  orElse (walk program (encode program)) fun diagnostic ↦ do
    ofWork Generator.dropCode
    throw (.diagnostic diagnostic)
  let done ← get
  ofWork (Generator.note .debug "armlet.assembler.codegen"
    ("pass 2 complete: emitted " ++ toString done.code.size ++ " bytes"))

def generate (program : Program) : Effort Unit := do
  modify fun generator ↦ { generator with symbols := .empty, program? := some program }
  ofWork Generator.dropCode
  firstPass program
  secondPass program

def read (depth : Nat) (source file : String) : Effort Unit := do
  let generator ← get
  let program ← ofTrial (Trial.read depth source file generator.limits.nodes)
  ofWork (Generator.note .debug "armlet.assembler.assembler"
    ("parsed " ++ toString program.nodes ++ " nodes"))
  generate program

def assemble (depth : Nat) (source file : String) : Effort (List UInt8) := do
  ofWork (Generator.note .debug "armlet.assembler.assembler" ("assembling " ++ file))
  orElse (read depth source file) fun diagnostic ↦ do
    let diagnostic ← ofTrial (Trial.locate source diagnostic)
    throw (.diagnostic diagnostic)
  let generator ← get
  ofWork (Generator.note .info "armlet.assembler.assembler"
    (file ++ ": " ++ toString generator.code.size ++ " bytes, " ++
      toString generator.symbols.defined.length ++ " symbols"))
  return generator.code.toList

end Effort

/-- Assembles one source by trials, with room for so many calls of the parser within one another. -/
def Generator.attempt (depth : Nat) (generator : Generator) (source file : String) :
    Except Raised (List UInt8) × Generator :=
  (ExceptT.run (Effort.assemble depth source file)).run generator

end MiniA64
