import MiniA64.Assembly.Assembler

/-!
# The code generator

One generator makes the code of one program after another. All that it keeps is one state: the
symbols, the code and the listing of its last program, and the address, the pass and the section
that it is in. It walks a program twice. The first pass binds names and counts bytes, the second
emits them, and a directive does in either pass what belongs there. An error leaves the state as
far as it has come; the second pass then drops the code.
-/

namespace MiniA64

inductive Pass
  | first
  | second
  deriving DecidableEq, Repr

structure Generator where
  limits : Limits
  symbols : SymbolTable
  code : Array UInt8
  listing : Array ListingEntry
  /-- The address of what comes next. -/
  counter : Nat
  pass : Pass
  sectionName : String
  /-- The last program that has been read. -/
  program? : Option Program
  log : List LogRecord

namespace Generator

def new (limits : Limits) : Generator :=
  { limits
    symbols := .empty
    code := #[]
    listing := #[]
    counter := 0
    pass := .first
    sectionName := "text"
    program? := none
    log := [] }

/-- What changes a generator and may end with a diagnostic. -/
abbrev Work (α : Type) := ExceptT Diagnostic (StateM Generator) α

/-- The answer of some work on a generator, and what becomes of the generator. -/
def after {α : Type} (generator : Generator) (work : Work α) :
    Except Diagnostic α × Generator :=
  (ExceptT.run work).run generator

/-- Ends with a diagnostic if a step does. -/
def settle {α : Type} (step : Except Diagnostic α) : Work α := ExceptT.mk (pure step)

def note (level : LogLevel) (source message : String) : Work Unit :=
  modify fun generator ↦
    { generator with log := generator.log ++ [⟨level, source, message⟩] }

/-! ## Symbols -/

def define (name : String) (value : Int) (location : Location)
    (binding : SymbolTable.Binding) : Work Unit := do
  let generator ← get
  let symbols ← settle
    (generator.symbols.define generator.limits.symbols name value location binding)
  set { generator with symbols }
  note .debug "armlet.assembler.codegen" ("define " ++ name ++ " = 0x" ++ Text.hexLower 0 value)

def declare (argument : Operand) : Work Unit :=
  match argument.kind with
  | .symbol name => do
    let generator ← get
    let symbols ← settle
      (generator.symbols.declare generator.limits.symbols name argument.location)
    set { generator with symbols }
  | _ => settle (Padding.refuse argument.location .symbolName)

def defineConstant (directive : Directive) (location : Location) (arguments : List Operand) :
    Work Unit :=
  match arguments with
  | [⟨_, _, .symbol name⟩, argument] => do
    let generator ← get
    let value ← settle
      (match argument.kind with
        | .immediate value => .ok value
        | .symbol other => generator.symbols.resolve other argument.location
        | _ => Selection.refuse argument.location (.expected .constantValue))
    define name value location (if directive = .set then .variable else .constant)
  | _ => settle (Padding.refuse location (.constantArguments directive.name))

/-! ## Bytes -/

/-- Counts bytes without emitting them. -/
def advance (location : Location) (size : Nat) : Work Unit := do
  let generator ← get
  if generator.limits.capacity < generator.counter + size then
    settle (Emission.overflow generator.limits location)
  else set { generator with counter := generator.counter + size }

/-- Emits bytes, or just counts them in the first pass. They are made only if there is room. -/
def emit (location : Location) (size : Nat) (data : Unit → List UInt8) : Work Unit := do
  let generator ← get
  match generator.pass with
  | .first => advance location size
  | .second =>
    if generator.limits.capacity < generator.counter + size then
      settle (Emission.overflow generator.limits location)
    else
      set { generator with
        code := generator.code ++ data ()
        listing := generator.listing.push ⟨generator.counter, data (), location⟩
        counter := generator.counter + size }

def align (directive : Directive) (location : Location) (arguments : List Operand) :
    Work Unit := do
  let generator ← get
  let padding ← settle
    (Padding.ofAlignment generator.symbols directive location arguments generator.counter)
  if padding.count = 0 then return ()
  else emit location padding.count fun _ ↦ padding.bytes

def reserve (location : Location) (arguments : List Operand) : Work Unit := do
  let generator ← get
  let padding ← settle (Padding.ofSpace generator.symbols location arguments)
  emit location padding.count fun _ ↦ padding.bytes

/-- A value is looked at in the second pass only, when all symbols are known. -/
def placeValue (width : Nat) (argument : Operand) : Work Unit := do
  let generator ← get
  match generator.pass with
  | .first => emit argument.location width fun _ ↦ List.replicate width 0
  | .second => do
    let data ← settle (Data.ofValue generator.symbols width argument)
    emit argument.location data.length fun _ ↦ data

def placeString (directive : Directive) (argument : Operand) : Work Unit := do
  let data ← settle (Data.ofString directive argument)
  emit argument.location data.length fun _ ↦ data

/-! ## Statements -/

/-- Takes the arguments of a directive one by one. There has to be at least one. -/
def each (location : Location) (absent : DirectiveError) (arguments : List Operand)
    (work : Operand → Work Unit) : Work Unit :=
  if arguments.isEmpty then settle (Padding.refuse location absent) else arguments.forM work

/-- What only the first pass does. -/
def once (work : Work Unit) : Work Unit := do
  let generator ← get
  match generator.pass with
  | .first => work
  | .second => return ()

def enterSection (name : String) : Work Unit :=
  modify fun generator ↦ { generator with sectionName := name }

def directive (name : Directive) (location : Location) (arguments : List Operand) : Work Unit :=
  match name with
  | .text | .data | .bss => enterSection name.name
  | .namedSection =>
    match arguments with
    | ⟨_, _, .symbol name⟩ :: _ => enterSection (String.ofList (name.toList.dropWhile (· = '.')))
    | _ => settle (Padding.refuse location .sectionName)
  | .external => return ()
  | .global | .globl => once (each location .noGlobals arguments declare)
  | .equ | .set => once (defineConstant name location arguments)
  | .align | .balign | .p2align => align name location arguments
  | .byte => each location .noValues arguments (placeValue 1)
  | .hword => each location .noValues arguments (placeValue 2)
  | .word => each location .noValues arguments (placeValue 4)
  | .quad => each location .noValues arguments (placeValue 8)
  | .ascii | .asciz | .string => each location .noStrings arguments (placeString name)
  | .space | .skip => reserve location arguments

/-- The first pass on a statement. -/
def layOut (statement : Statement) : Work Unit :=
  match statement.kind with
  | .label name => do
    let generator ← get
    define name generator.counter statement.location .label
  | .instruction _ _ _ => advance statement.location 4
  | .directive name arguments => directive name statement.location arguments

/-- The second pass on a statement. -/
def encode (statement : Statement) : Work Unit :=
  match statement.kind with
  | .label _ => return ()
  | .instruction mnemonic spelling operands => do
    let generator ← get
    let site : Site := ⟨generator.symbols, generator.counter, statement.location, spelling⟩
    let instruction ← settle (mnemonic.select site operands)
    emit statement.location 4 fun _ ↦ Word.toBytes instruction.encode
  | .directive name arguments => directive name statement.location arguments

/-! ## Programs -/

/-- Starts a pass at the beginning of the program. -/
def start (pass : Pass) : Work Unit :=
  modify fun generator ↦ { generator with pass, counter := 0, sectionName := "text" }

def dropCode : Work Unit :=
  modify fun generator ↦ { generator with code := #[], listing := #[] }

/-- Reports each name that has been declared global and never bound. -/
def noteUndefined : Work Unit := do
  let generator ← get
  (generator.symbols.entries.filter fun symbol ↦ symbol.isGlobal && !symbol.isDefined).forM
    fun symbol ↦
      note .warning "armlet.assembler.codegen"
        ("global symbol '" ++ symbol.name ++ "' is never defined")

def firstPass (program : Program) : Work Unit := do
  start .first
  program.statements.forM layOut
  let laid ← get
  note .debug "armlet.assembler.codegen"
    ("pass 1 complete: " ++ toString laid.counter ++ " bytes, " ++
      toString laid.symbols.entries.length ++ " symbols")
  noteUndefined

/-- No code is kept if the second pass fails. -/
def secondPass (program : Program) : Work Unit := do
  start .second
  tryCatch (program.statements.forM encode) fun diagnostic ↦ do
    dropCode
    throw diagnostic
  let done ← get
  note .debug "armlet.assembler.codegen"
    ("pass 2 complete: emitted " ++ toString done.code.size ++ " bytes")

/-- Makes the code of a program, after all that is left of the last one has been dropped. -/
def generate (program : Program) : Work Unit := do
  modify fun generator ↦ { generator with symbols := .empty, program? := some program }
  dropCode
  firstPass program
  secondPass program

def read (source file : String) : Work Unit := do
  let generator ← get
  let program ← settle (Program.parse source file generator.limits.nodes)
  note .debug "armlet.assembler.assembler" ("parsed " ++ toString program.nodes ++ " nodes")
  generate program

/-- Assembles one source. A diagnostic shows the line of the source that it is about. -/
def assemble (source file : String) : Work (List UInt8) := do
  note .debug "armlet.assembler.assembler" ("assembling " ++ file)
  tryCatch (read source file) fun diagnostic ↦ throw (diagnostic.locate source)
  let generator ← get
  note .info "armlet.assembler.assembler"
    (file ++ ": " ++ toString generator.code.size ++ " bytes, " ++
      toString generator.symbols.defined.length ++ " symbols")
  return generator.code.toList

/-- Assembles one source after another, whether they fail or not. -/
def session (generator : Generator) (sources : List (String × String)) : Generator :=
  sources.foldl (fun generator source ↦ (generator.after (assemble source.1 source.2)).2) generator

/-- What a generator shows. -/
def view (generator : Generator) : Assembler where
  limits := generator.limits
  symbols := generator.symbols
  emission := ⟨generator.code, generator.listing⟩
  source := (generator.program?.map Program.source).getD ""
  log := generator.log

end Generator

end MiniA64
