import MiniA64.Assembly.Listing
import MiniA64.CommandLine.Arguments
import MiniA64.CommandLine.Run

/-!
# The tools

The assembler, which can run its program straight away, the engine that runs programs, and the
disassembler. Each takes one input file and options.
-/

namespace MiniA64

/-- What a tool is called with. -/
structure Invocation where
  arguments : List String
  workspace : Workspace
  environment : List (String × String)
  input : List UInt8

inductive Tool
  | armasm
  | armrun
  | armdisasm
  deriving DecidableEq, Repr

namespace Tool

open Session

variable {σ : Type}

def name : Tool → String
  | armasm => "armasm"
  | armrun => "armrun"
  | armdisasm => "armdisasm"

def ofName? (name : String) : Option Tool :=
  [armasm, armrun, armdisasm].find? fun tool ↦ tool.name = name

def versionFlag : OptionSpec := ⟨none, "version", .flag⟩

def helpFlag : OptionSpec := ⟨none, "help", .flag⟩

def verboseFlag : OptionSpec := ⟨some 'v', "verbose", .flag⟩

def debugFlag : OptionSpec := ⟨some 'd', "debug", .flag⟩

def outputOption : OptionSpec := ⟨some 'o', "output", .file⟩

/-- The suffix of the file for code, unless another file is named. -/
def codeSuffix : String := ".bin"

def options (tool : Tool) : List OptionSpec :=
  [versionFlag, helpFlag, verboseFlag] ++
    match tool with
    | armasm =>
      [outputOption, ⟨some 'l', "listing", .file⟩, ⟨some 's', "symbols", .file⟩,
        ⟨some 'r', "run", .flag⟩, debugFlag]
    | armrun =>
      [debugFlag, ⟨some 'm', "max-instructions", .number 1⟩,
        ⟨some 'f', "files-dir", .directory⟩, ⟨none, "png", .file⟩]
    | armdisasm =>
      [outputOption, ⟨some 'a', "address", .text⟩, ⟨some 'c', "count", .number 0⟩,
        ⟨none, "no-bytes", .flag⟩]

def usage (tool : Tool) : String := "Usage: " ++ tool.name ++ " [OPTIONS] INPUT_FILE\n"

/-- Checks a path by a condition on its text. -/
def checkPath (accepts : String → Bool) (text : String) : Except UsageError Unit :=
  if text.contains '\x00' then .error .nullInPath
  else if accepts text then .ok ()
  else .error .badPath

/-- Checks the value of an option. -/
def checkValue (workspace : Workspace) (kind : OptionKind) (text : String) :
    Except UsageError Unit :=
  match kind with
  | .flag => .ok ()
  | .text => .ok ()
  | .file => checkPath (fun text ↦ !Path.isDirectory workspace text) text
  | .directory => checkPath (fun text ↦ !Path.isFile workspace text) text
  | .number least =>
    match Text.decimalInteger? text with
    | some value => if value < least then .error .badNumber else .ok ()
    | none => .error .badNumber

/-- Checks the input file, which has to exist and to be the only positional argument. -/
def checkPositional (workspace : Workspace) : List String → Except UsageError Unit
  | [] => .error .missingArgument
  | text :: more => do
    checkPath (Path.isFile workspace) text
    if !more.isEmpty then throw .extraArgument

/--
Checks the options in the order in which they are given, then the positional arguments. An option
that is given again has its last value in its first place.
-/
def check (tool : Tool) (workspace : Workspace) (arguments : Arguments) :
    Except UsageError Unit := do
  for option in arguments.options do
    match tool.options.find? fun spec ↦ spec.name = option.name, arguments.value? option.name with
    | some spec, some text => checkValue workspace spec.kind text
    | _, _ => pure ()
  checkPositional workspace arguments.positional

/-- The path of the input file. -/
def inputPath (arguments : Arguments) : Path := .ofText (arguments.positional.headD "")

def pathOption (arguments : Arguments) (name : String) : Option Path :=
  (arguments.value? name).map .ofText

def numberOption (arguments : Arguments) (name : String) : Option Int :=
  (arguments.value? name).bind Text.decimalInteger?

/-- What the assembler writes besides the code. -/
structure AssembleOptions where
  input : Path
  output : Option Path
  listing : Option Path
  symbols : Option Path
  runs : Bool
  debug : Bool

namespace AssembleOptions

def ofArguments (arguments : Arguments) : AssembleOptions :=
  { input := inputPath arguments
    output := pathOption arguments "output"
    listing := pathOption arguments "listing"
    symbols := pathOption arguments "symbols"
    runs := arguments.hasFlag "run"
    debug := arguments.hasFlag "debug" }

/-- Assembles the text of a file, and shows the log of the assembler in any case. -/
def assemble (input : Path) : SessionM Assembler := do
  match Text.decodeUtf8 (← readFile input) with
  | .error error => throw (.encoding error)
  | .ok text =>
    let source := String.ofList (Text.unifyNewlines text)
    let (result, assembler) := (Assembler.new {}).assemble source input.text
    showRecords assembler.log
    match result with
    | .ok _ => return assembler
    | .error diagnostic => throw (.assembly diagnostic)

def noteWritten (what : String) (path : Path) : SessionM Unit :=
  showRecord ⟨.info, "armlet.assembler.assembler", "wrote " ++ what ++ " to " ++ path.text⟩

/-- Writes a text beside the code, if it is wanted. -/
def writeText (what : String) (path : Option Path) (text : String) : SessionM Unit :=
  match path with
  | none => pure ()
  | some path => do
    writeFile path (Text.encodeUtf8 text)
    noteWritten what path
    whenVerbose (printLine ("Wrote " ++ what ++ " to " ++ path.text))

/-- Assembles the input and writes all that is wanted of it. -/
def build (options : AssembleOptions) : SessionM Assembler := do
  let output := options.output.getD (options.input.withSuffix codeSuffix)
  whenVerbose (printLine ("Assembling " ++ options.input.text ++ "..."))
  let assembler ← assemble options.input
  let size := toString assembler.code.length ++ " bytes"
  writeFile output assembler.code
  noteWritten size output
  whenVerbose (printLine ("Wrote " ++ size ++ " to " ++ output.text))
  writeText "listing" options.listing assembler.listing
  writeText "symbols" options.symbols assembler.symbolFile
  whenVerbose do
    printLine ("Assembly complete: " ++ size)
    printLine ("Defined " ++ toString assembler.symbols.defined.length ++ " symbols")
  return assembler

def perform (options : AssembleOptions) (platform : Platform σ) (invocation : Invocation) :
    SessionM Nat := do
  let assembler ← build options
  if options.runs || options.debug then
    let run : RunOptions := ⟨options.debug, none, none, none⟩
    let faulted ← run.run platform (ManualClock.startingAt 0) invocation.environment
      invocation.input assembler.code
    return if faulted then 1 else 0
  else return 0

end AssembleOptions

/-- The options of the engine. -/
def runOptions (arguments : Arguments) : RunOptions :=
  { debug := arguments.hasFlag "debug"
    maxInstructions := numberOption arguments "max-instructions"
    filesDirectory := pathOption arguments "files-dir"
    picture := pathOption arguments "png" }

def performRun {τ : Type} [Clock τ] (platform : Platform σ) (clock : τ) (input : Path)
    (options : RunOptions) (invocation : Invocation) : SessionM Nat := do
  let code ← readFile input
  whenVerbose
    (reportLine ("Loaded " ++ toString code.length ++ " bytes from " ++ input.text))
  let faulted ← options.run platform clock invocation.environment invocation.input code
  return if faulted then 1 else 0

structure DisassembleOptions where
  input : Path
  output : Option Path
  address : String
  count : Option Int
  plain : Bool

namespace DisassembleOptions

def ofArguments (arguments : Arguments) : DisassembleOptions :=
  { input := inputPath arguments
    output := pathOption arguments "output"
    address := (arguments.value? "address").getD "0"
    count := numberOption arguments "count"
    plain := arguments.hasFlag "no-bytes" }

/-- The whole listing. A plain one holds instructions only, ready to be assembled again. -/
def listing (options : DisassembleOptions) (address : Int) (data : List UInt8)
    (lines : List DisassembledLine) : String :=
  let listed :=
    if options.plain then lines.map fun line ↦ "    " ++ line.text
    else
      ["; Disassembly of " ++ options.input.fileName,
        "; Size: " ++ toString data.length ++ " bytes",
        "; Base address: 0x" ++ Text.hexUpper 4 address, ""] ++ lines.map (·.listing)
  "\n".intercalate listed ++ "\n"

def perform (options : DisassembleOptions) : SessionM Nat := do
  match Text.integer? options.address with
  | none => throw (.invalidNumber options.address)
  | some address =>
    let data ← readFile options.input
    whenVerbose do
      reportLine
        ("Input file: " ++ options.input.text ++ " (" ++ toString data.length ++ " bytes)")
      reportLine ("Base address: 0x" ++ Text.hexUpper 4 address)
    if data.length % 4 ≠ 0 then
      reportLine
        ("Warning: ignoring " ++ toString (data.length % 4) ++ " trailing byte(s)")
    let lines := Disassembly.ofBytes .empty data address options.count
    let listing := options.listing address data lines
    match options.output with
    | some output =>
      writeFile output (Text.encodeUtf8 listing)
      whenVerbose (reportLine ("Output written to: " ++ output.text))
    | none => print listing
    whenVerbose (reportLine ("Instructions disassembled: " ++ toString lines.length))
    return 0

end DisassembleOptions

/-- The session that arguments ask for, if they pass the check. -/
def session (tool : Tool) (platform : Platform σ) (arguments : Arguments)
    (invocation : Invocation) : SessionM Nat :=
  match tool with
  | armasm => (AssembleOptions.ofArguments arguments).perform platform invocation
  | armrun =>
    performRun platform (ManualClock.startingAt 0) (inputPath arguments) (runOptions arguments)
      invocation
  | armdisasm => (DisassembleOptions.ofArguments arguments).perform

/-- Ends at once with a text on the output, or among the errors. -/
def sayOnly (invocation : Invocation) (exit : Nat) (output errors : String) : Outcome :=
  ⟨exit, invocation.workspace.tree, Text.encodeUtf8 output, Text.encodeUtf8 errors⟩

/-- Whichever of two flags is given first, if one is. -/
def firstOf (names : List String) (arguments : Arguments) : Option String :=
  (arguments.options.find? fun option ↦ names.contains option.name).map (·.name)

/-- Whether arguments ask for a run of a program, which reads the input. -/
def readsInput (tool : Tool) (arguments : Arguments) : Bool :=
  match tool with
  | armasm => arguments.hasFlag "run" || arguments.hasFlag debugFlag.name
  | armrun => true
  | armdisasm => false

/-- The paths that arguments mention, and the one that code goes to if they mention none. -/
def mentioned (arguments : Arguments) : List Path :=
  let inputs := arguments.positional.map Path.ofText
  inputs ++ inputs.map (·.withSuffix codeSuffix) ++
    (arguments.options.filterMap (·.value)).map Path.ofText

/-- Runs a tool. Asking for the version or for help comes before all other use of arguments. -/
def run (tool : Tool) (platform : Platform σ) (invocation : Invocation) : Outcome :=
  let refused (error : UsageError) :=
    sayOnly invocation error.exit "" (error.report tool.usage)
  match Arguments.read tool.options invocation.arguments with
  | .error error => refused error
  | .ok arguments =>
    match firstOf [versionFlag.name, helpFlag.name] arguments with
    | some "version" => sayOnly invocation 0 (tool.name ++ ", version 1.0.0\n") ""
    | some _ => sayOnly invocation 0 tool.usage ""
    | none =>
      match tool.check invocation.workspace arguments with
      | .error error => refused error
      | .ok _ =>
        Outcome.ofSession (arguments.hasFlag verboseFlag.name) invocation.workspace
          (tool.session platform arguments invocation)

end Tool

end MiniA64
