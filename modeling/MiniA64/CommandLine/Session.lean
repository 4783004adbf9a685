import MiniA64.Assembly.Diagnostic
import MiniA64.CommandLine.Path
import MiniA64.Host.Basic
import MiniA64.Machine.Memory
import MiniA64.Machine.Picture
import MiniA64.Text.Styling
import MiniA64.Text.Utf8

/-!
# A session of a tool

What a tool has done so far: the files it left, what it printed and what it reported as errors.
The tool shows its own lines as plain text. Log records count among the errors and are shown as
they are, but only warnings unless the tool is verbose. A tool that fails keeps what it has done
until then.
-/

namespace MiniA64

/-- Why a tool ends early. -/
inductive ToolError
  | assembly (diagnostic : Diagnostic)
  | invalidNumber (text : String)
  | file (error : FileError) (path : String)
  | encoding (error : Text.Utf8Error)
  | memory (error : MemoryError)
  | device (error : DeviceError)
  | picture (error : RenderError)
  deriving Repr

namespace ToolError

/-- Who is to blame for an error. -/
inductive Cause
  | program
  | arguments
  | tool
  deriving DecidableEq, Repr

/-- The user can be expected to name files that are there, and sizes that make sense. -/
def cause : ToolError → Cause
  | assembly _ => .program
  | invalidNumber _ => .arguments
  | file .notFound _ => .arguments
  | file .isDirectory _ => .arguments
  | file _ _ => .tool
  | encoding _ => .arguments
  | memory .notIndexable => .tool
  | memory .unavailable => .tool
  | memory _ => .arguments
  | device _ => .tool
  | picture error => if error.badValue then .arguments else .tool

def Cause.heading : Cause → String
  | program => "Assembly error: "
  | arguments => "Error: "
  | tool => "Internal error: "

def Cause.exit : Cause → Nat
  | program => 1
  | arguments => 2
  | tool => 3

def detail : ToolError → String
  | assembly diagnostic => diagnostic.text
  | invalidNumber text => "invalid number '" ++ text ++ "'"
  | file error path => (DeviceError.file error path).message
  | encoding error => error.message
  | memory error => error.message
  | device error => error.message
  | picture error => error.message

def message (error : ToolError) : String := error.cause.heading ++ error.detail

def exit (error : ToolError) : Nat := error.cause.exit

end ToolError

structure Session where
  verbose : Bool
  workspace : Workspace
  output : Array UInt8
  errors : Array UInt8
  deriving Repr

abbrev SessionM := EStateM ToolError Session

namespace Session

def printBytes (data : List UInt8) : SessionM Unit :=
  modify fun session ↦ { session with output := session.output ++ data }

/-- Prints a text as it is. -/
def printText (text : String) : SessionM Unit := printBytes (Text.encodeUtf8 text)

def print (text : String) : SessionM Unit := printText (Text.plain text)

def printLine (line : String) : SessionM Unit := print (line ++ "\n")

/-- Reports a text as it is. -/
def reportText (text : String) : SessionM Unit :=
  modify fun session ↦ { session with errors := session.errors ++ Text.encodeUtf8 text }

def reportLine (line : String) : SessionM Unit := reportText (Text.plain (line ++ "\n"))

/-- Runs a part of the tool that only speaks when it is verbose. -/
def whenVerbose (action : SessionM Unit) : SessionM Unit := do
  if (← get).verbose then action

def showRecord (record : LogRecord) : SessionM Unit := do
  if (← get).verbose then
    reportText (record.level.name ++ ": " ++ record.source ++ ": " ++ record.message ++ "\n")
  else if record.level = .warning then
    reportText (record.level.name ++ ": " ++ record.message ++ "\n")

def showRecords (records : List LogRecord) : SessionM Unit := records.forM showRecord

def readFile (path : Path) : SessionM (List UInt8) := do
  match path.locate (← get).workspace with
  | .ok (_, some (.file data)) => return data
  | .ok (_, some .directory) => throw (.file .isDirectory path.text)
  | .ok (_, none) => throw (.file .notFound path.text)
  | .error error => throw (.file error path.text)

def keepTree (tree : FileTree) : SessionM Unit :=
  modify fun session ↦ { session with workspace := { session.workspace with tree } }

def writeFile (path : Path) (data : List UInt8) : SessionM Unit := do
  let workspace := (← get).workspace
  match workspace.tree.write (path.start workspace) path.names data with
  | .ok tree => keepTree tree
  | .error error => throw (.file error path.text)

end Session

/-- What a tool leaves behind. -/
structure Outcome where
  exit : Nat
  tree : FileTree
  output : List UInt8
  errors : List UInt8
  deriving Repr

namespace Outcome

/-- Runs a session, which tells its exit code, and reports the error that ends it early. -/
def ofSession (verbose : Bool) (workspace : Workspace) (session : SessionM Nat) : Outcome :=
  let run : SessionM Nat := tryCatch session fun error ↦ do
    Session.reportLine error.message
    return error.exit
  let outcome (exit : Nat) (session : Session) : Outcome :=
    ⟨exit, session.workspace.tree, session.output.toList, session.errors.toList⟩
  match run.run ⟨verbose, workspace, #[], #[]⟩ with
  | .ok exit session => outcome exit session
  | .error error session => outcome error.exit session

end Outcome

end MiniA64
