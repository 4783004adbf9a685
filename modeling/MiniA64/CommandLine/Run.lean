import MiniA64.CommandLine.Platform
import MiniA64.Host.Directory
import MiniA64.Host.Memory
import MiniA64.Machine.Inspection

/-!
# Running a program from the command line

The program prints to the output of the tool and reads its input. In single-step mode a line of
the same input lets the machine take a step. Such lines are read ahead of the program, which sees
only the input that a prompt leaves.
-/

namespace MiniA64

/-- The file store of a program: in memory, or in a directory that is kept. -/
inductive ToolStore
  | memory (store : MemoryStore)
  | directory (store : DirectoryStore)

namespace ToolStore

/-- Continues with a memory store. -/
def ofMemory {α : Type} (answer : α) (store : MemoryStore) : Reply ToolStore α :=
  (.ok answer, .memory store)

/-- Continues with a directory store. -/
def ofDirectory {α : Type} (reply : Reply DirectoryStore α) : Reply ToolStore α :=
  (reply.1, .directory reply.2)

instance : FileStore ToolStore where
  create name
    | .memory store => ofMemory (store.create name).1 (store.create name).2
    | .directory store => ofDirectory (store.create name)
  write name data
    | .memory store => ofMemory () (store.write name data)
    | .directory store => ofDirectory (store.write name data)
  read name
    | .memory store => ofMemory (store.read name) store
    | .directory store => ofDirectory (store.read name)
  delete name
    | .memory store => ofMemory (store.delete name).1 (store.delete name).2
    | .directory store => ofDirectory (store.delete name)
  contains name
    | .memory store => ofMemory (store.contains name) store
    | .directory store => ofDirectory (store.contains name)

end ToolStore

structure RunOptions where
  debug : Bool
  maxInstructions : Option Int
  filesDirectory : Option Path
  picture : Option Path

abbrev ToolMachine (τ : Type) := Machine BufferConsole ToolStore τ

namespace RunOptions

open Session

variable {σ τ : Type}

/-- Moves what a machine has printed and logged to the session. -/
def drain (machine : ToolMachine τ) : SessionM (ToolMachine τ) := do
  let world := machine.world
  printBytes world.host.console.output.toList
  showRecords world.log.toList
  match world.host.files with
  | .directory store => keepTree store.tree
  | .memory _ => pure ()
  return { machine with
    world := { world with
      log := #[]
      host := { world.host with console := world.host.console.clear } } }

/-- Shows a framebuffer in use. -/
def showScreen (machine : ToolMachine τ) : SessionM (ToolMachine τ) := do
  let (answer, machine) := machine.flush
  let machine ← drain machine
  match answer with
  | .ok _ => return machine
  | .error error => throw (.device error)

def isQuit (answer : String) : Bool :=
  Text.lower (String.ofList (Text.trim Text.isBlank answer.toList)) = "q"

/-- Shows the machine before a step. -/
def showState (machine : ToolMachine τ) : SessionM (ToolMachine τ) := do
  let (line, machine) := machine.debugLine
  let machine ← drain machine
  reportLine line
  return machine

def ask (prompter : Prompter σ) (state : σ) (machine : ToolMachine τ) :
    SessionM (PromptAnswer × σ × ToolMachine τ) := do
  let world := machine.world
  let reply := prompter.ask state world.host.console.input
  printBytes reply.shown
  match reply.answer with
  | .ok answer =>
    let console := { world.host.console with input := reply.input }
    let machine := { machine with world := { world with host := { world.host with console } } }
    return (answer, reply.state, machine)
  | .error error => throw error

/-- Takes a step for each line that is entered, and no more steps than a number. -/
def stepThrough [Clock τ] (prompter : Prompter σ) :
    Nat → ToolMachine τ → σ → SessionM (ToolMachine τ)
  | 0, machine, _ => showScreen machine
  | bound + 1, machine, state => do
    if !machine.isRunning then showScreen machine
    else
      let machine ← showState machine
      match ← ask prompter state machine with
      | (.ended held, _, machine) =>
        let machine ← showScreen machine
        printBytes held
        return machine
      | (.line text, state, machine) =>
        if isQuit text then showScreen machine
        else
          let machine ← drain machine.step.2
          stepThrough prompter bound machine state

/-- Asks before each step. The step after the last that the ceiling allows ends the machine. -/
def runDebug [Clock τ] (prompter : Prompter σ) (machine : ToolMachine τ) :
    SessionM (ToolMachine τ) := do
  reportLine "Debug mode: Enter steps, q quits"
  stepThrough prompter (machine.budget + 1) machine prompter.start

def runPlain [Clock τ] (machine : ToolMachine τ) : SessionM (ToolMachine τ) := do
  let machine ← drain machine.run
  showScreen machine

def storeOf (options : RunOptions) : SessionM ToolStore := do
  match options.filesDirectory with
  | none => return .memory .empty
  | some path =>
    let workspace := (← get).workspace
    let root := FileTree.resolve (path.start workspace) path.names
    match DirectoryStore.new root workspace.tree with
    | .ok store => return .directory store
    | .error (error, path) => throw (.file error ("/" ++ FileTree.textOf path))

/-- The configuration that the environment and the options want. -/
def configOf (options : RunOptions) (environment : List (String × String)) : SessionM Config := do
  let (config, records) := Config.ofEnvironment environment
  showRecords records
  return match options.maxInstructions with
    | some maxInstructions => { config with maxInstructions }
    | none => config

/-- A machine that has loaded a program. -/
def loaded (available : Int) (config : Config) (host : Host BufferConsole ToolStore τ)
    (code : List UInt8) : SessionM (ToolMachine τ) :=
  match (Machine.new available config host).bind (Machine.load code) with
  | .ok machine => drain machine
  | .error error => throw (.memory error)

/-- A machine with a program, as the environment and the options want it. -/
def machineOf (options : RunOptions) (available : Int) (clock : τ)
    (environment : List (String × String)) (input code : List UInt8) :
    SessionM (ToolMachine τ) := do
  let config ← configOf options environment
  let store ← storeOf options
  loaded available config ⟨.ofInput input, store, clock⟩ code

/-- Runs a program, in single-step mode or at once. -/
def execute [Clock τ] (options : RunOptions) (platform : Platform σ) (clock : τ)
    (environment : List (String × String)) (input code : List UInt8) :
    SessionM (ToolMachine τ) := do
  let machine ← machineOf options platform.available clock environment input code
  if options.debug then runDebug platform.prompter machine else runPlain machine

/-- The size of a cell in a picture that is saved. -/
def cellSize : CanvasSize := ⟨8, 14⟩

/-- Saves the picture of a framebuffer, or warns that there is none. -/
def savePicture (renderer : Option Renderer) (screen : Framebuffer) (path : Path) :
    SessionM Unit :=
  match screen.render? renderer cellSize with
  | some (.ok data) => writeFile path data
  | some (.error error) => throw (.picture error)
  | none => reportLine "Warning: no framebuffer image (unused framebuffer or Pillow missing)"

/-- Saves a picture if one is wanted, then tells how a run has ended, and whether it faulted. -/
def report (options : RunOptions) (renderer : Option Renderer) (machine : ToolMachine τ) :
    SessionM Bool := do
  match options.picture with
  | some path => savePicture renderer machine.world.screen path
  | none => pure ()
  match machine.status.fault? with
  | some fault => reportLine ("Fault: " ++ fault.text)
  | none => pure ()
  printLine ("Executed " ++ toString machine.executed ++ " instructions")
  return machine.status.fault?.isSome

/-- Runs a program and tells whether it faulted. -/
def run [Clock τ] (options : RunOptions) (platform : Platform σ) (clock : τ)
    (environment : List (String × String)) (input code : List UInt8) : SessionM Bool := do
  options.report platform.renderer (← options.execute platform clock environment input code)

end RunOptions

end MiniA64
