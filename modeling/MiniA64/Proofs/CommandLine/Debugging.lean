import MiniA64.Proofs.CommandLine.Answers
import MiniA64.Proofs.CommandLine.SingleSteps

/-!
# Debugging a program that asks for nothing

A program that reads neither the console nor the clock runs in single-step mode as it runs at once,
if there is an empty line for each of its steps: the machine ends the same, the tool ends the same,
and its output is the same but for the prompts.
-/

namespace MiniA64

open Session RunOptions

/-! ## Results that agree -/

/-- An output, and the same with prompts in it. -/
inductive Prompted (prompt : List UInt8) : List UInt8 → List UInt8 → Prop
  | same (data : List UInt8) : Prompted prompt data data
  | prompt {plain prompted : List UInt8} : Prompted prompt plain prompted →
    Prompted prompt plain (prompt ++ prompted)
  | append {plain prompted plain' prompted' : List UInt8} : Prompted prompt plain prompted →
    Prompted prompt plain' prompted' →
    Prompted prompt (plain ++ plain') (prompted ++ prompted')

/-- Sessions that have come to the same but for prompts and for the errors that they report. -/
structure Session.Alike (prompt : List UInt8) (plain prompted : Session) : Prop where
  verbose : prompted.verbose = plain.verbose
  workspace : prompted.workspace = plain.workspace
  output : Prompted prompt plain.output.toList prompted.output.toList

/-- Results with answers that are the same, or with the same error, in sessions that are alike. -/
def Agree {α β : Type} (prompt : List UInt8) (same : α → β → Prop) :
    EStateM.Result ToolError Session α → EStateM.Result ToolError Session β → Prop
  | .ok answer session, .ok answer' session' =>
    same answer answer' ∧ session.Alike prompt session'
  | .error error session, .error error' session' =>
    error' = error ∧ session.Alike prompt session'
  | _, _ => False

variable {prompt : List UInt8}

theorem Session.Alike.refl (session : Session) : session.Alike prompt session :=
  ⟨rfl, rfl, .same _⟩

namespace Agree

variable {α β γ δ : Type} {same : α → β → Prop} {same' : γ → δ → Prop}

/-- What follows results that agree has to agree for their answers only. -/
theorem bind {first : SessionM α} {second : SessionM β} {next : α → SessionM γ}
    {next' : β → SessionM δ} {session session' : Session}
    (agree : Agree prompt same (first session) (second session'))
    (follows : ∀ {answer answer' later later'}, first session = .ok answer later →
      same answer answer' → later.Alike prompt later' →
      Agree prompt same' (next answer later) (next' answer' later')) :
    Agree prompt same' ((first >>= next) session) ((second >>= next') session') := by
  cases known : first session with
  | ok answer later =>
    cases known' : second session' with
    | ok answer' later' =>
      rw [known, known'] at agree
      rw [bind_of_ok known, bind_of_ok known']
      exact follows known agree.1 agree.2
    | error error later' =>
      rw [known, known'] at agree
      exact agree.elim
  | error error later =>
    cases known' : second session' with
    | ok answer' later' =>
      rw [known, known'] at agree
      exact agree.elim
    | error error' later' =>
      rw [known, known'] at agree
      rw [bind_of_error known, bind_of_error known']
      exact agree

/-- What follows an action has to agree for what the action comes to only. -/
theorem after {action : SessionM α} {next : α → SessionM γ} {next' : α → SessionM δ}
    {session : Session}
    (agree : ∀ answer later, action session = .ok answer later →
      Agree prompt same' (next answer later) (next' answer later)) :
    Agree prompt same' ((action >>= next) session) ((action >>= next') session) := by
  cases known : action session with
  | ok answer later =>
    rw [bind_of_ok known, bind_of_ok known]
    exact agree answer later known
  | error error later =>
    rw [bind_of_error known, bind_of_error known]
    exact ⟨rfl, .refl later⟩

/-- Actions agree that do the same but for prompts. -/
theorem of_gives {first : SessionM α} {second : SessionM β} {answer : α} {answer' : β}
    {data data' : List UInt8} {change : FileTree → FileTree} {session session' : Session}
    (gives : Gives first answer data change) (gives' : Gives second answer' data' change)
    (ended : same answer answer') (prompted : Prompted prompt data data')
    (alike : session.Alike prompt session') :
    Agree prompt same (first session) (second session') := by
  obtain ⟨verbose, workspace, output⟩ := alike
  obtain ⟨errors, done⟩ := gives session
  obtain ⟨errors', done'⟩ := gives' session'
  rw [done, done']
  refine ⟨ended, verbose, by rw [workspace], ?_⟩
  rw [Array.toList_appendList, Array.toList_appendList]
  exact output.append prompted

/-- An action that always gives the same agrees with itself. -/
theorem of_gives_self {action : SessionM α} {answer : α} {data : List UInt8}
    {change : FileTree → FileTree} {session session' : Session}
    (gives : Gives action answer data change) (alike : session.Alike prompt session') :
    Agree prompt Eq (action session) (action session') :=
  of_gives gives gives rfl (.same data) alike

end Agree

/-- A file is written into the same tree, whatever has been printed. -/
theorem Session.writeFile_agree (path : Path) (data : List UInt8) {session session' : Session}
    (alike : session.Alike prompt session') :
    Agree prompt Eq (writeFile path data session) (writeFile path data session') := by
  have got (session : Session) : (get : SessionM Session) session = .ok session session := rfl
  rw [writeFile, bind_of_ok (got session), bind_of_ok (got session'), alike.workspace]
  cases session.workspace.tree.write (path.start session.workspace) path.names data with
  | ok tree => exact .of_gives_self (gives_keepTree tree) alike
  | error error => exact ⟨rfl, alike⟩

namespace Machine

variable {κ φ τ : Type}

/-- A program is loaded into a new machine as it is loaded into its memory, whatever the host is. -/
theorem new_load (available : Int) (config : Config) (host : Host κ φ τ) (code : List UInt8) :
    match (Memory.new available config.memorySize config.addressBase).bind (Memory.load code) with
    | .ok memory =>
      ∃ log, (new available config host).bind (load code) = .ok (ofMemory config memory host log)
    | .error error => (new available config host).bind (load code) = .error error := by
  rw [new]
  cases Memory.new available config.memorySize config.addressBase with
  | error error => rfl
  | ok memory =>
    dsimp only [Except.bind, Except.map, load, ofMemory]
    cases memory.load code with
    | error error => rfl
    | ok memory => exact ⟨_, rfl⟩

end Machine

namespace RunOptions

variable {σ τ τ' : Type} {options : RunOptions} {platform : Platform σ} {available : Int}
  {environment : List (String × String)} {code : List UInt8}

/-- Machines that are the same when bare, of which the second has an input. -/
structure Ready (input : List UInt8) (machine : ToolMachine τ) (second : ToolMachine τ') :
    Prop where
  bare : second.bare = machine.bare
  running : machine.isRunning = true
  printed : machine.printed = []
  printed' : second.printed = []
  input : second.world.host.console.input = input

theorem loaded_agree (config : Config) (store : ToolStore) (clock : τ) (clock' : τ')
    (input input' : List UInt8) (session : Session) :
    Agree prompt (Ready input')
      (loaded available config ⟨.ofInput input, store, clock⟩ code session)
      (loaded available config ⟨.ofInput input', store, clock'⟩ code session) := by
  have first := Machine.new_load available config ⟨BufferConsole.ofInput input, store, clock⟩ code
  have second :=
    Machine.new_load available config ⟨BufferConsole.ofInput input', store, clock'⟩ code
  unfold loaded
  cases made : (Memory.new available config.memorySize config.addressBase).bind
    (Memory.load code) with
  | error error =>
    rw [made] at first second
    rw [first, second]
    exact ⟨rfl, .refl session⟩
  | ok memory =>
    rw [made] at first second
    obtain ⟨log, first⟩ := first
    obtain ⟨log', second⟩ := second
    obtain ⟨errors, done⟩ := gives_drain (Machine.ofMemory config memory
      ⟨BufferConsole.ofInput input, store, clock⟩ log) session
    obtain ⟨errors', done'⟩ := gives_drain (Machine.ofMemory config memory
      ⟨BufferConsole.ofInput input', store, clock'⟩ log') session
    rw [first, second]
    dsimp only
    rw [done, done']
    exact ⟨⟨rfl, rfl, rfl, rfl, rfl⟩, rfl, rfl, .same _⟩

/-- The machines that a program runs on are the same but for the input and the clock. -/
theorem machineOf_agree (clock : τ) (clock' : τ') (input input' : List UInt8) (session : Session) :
    Agree prompt (Ready input') (options.machineOf available clock environment input code session)
      (options.machineOf available clock' environment input' code session) :=
  Agree.after fun config _ _ ↦ Agree.after fun store session _ ↦
    loaded_agree config store clock clock' input input' session

/-- What the steps print, with a prompt before each of them. -/
theorem prompted_steps (entered : List (ToolMachine τ)) [Clock τ] :
    Prompted prompt (entered.map Machine.prints).flatten
      (entered.map fun now ↦ prompt ++ now.prints).flatten := by
  induction entered with
  | nil => exact .same []
  | cons now entered ih => exact ((Prompted.same now.prints).prompt).append ih

/-- The run of a machine takes no more steps, and none of them asks for anything. -/
def RunsUnasking [Clock τ] (machine : ToolMachine τ) (steps : Nat) : Prop :=
  ∀ entered last, Machine.Runs machine entered last → entered.length ≤ steps ∧
    ∀ now ∈ entered, now.asks = false

/-- How a run has ended is told among the errors, how many instructions it took on the output. -/
theorem gives_ending (fault : Option Fault) (executed : Nat) :
    Gives (do
      match fault with
      | some fault => reportLine ("Fault: " ++ fault.text)
      | none => pure ()
      printLine ("Executed " ++ toString executed ++ " instructions")
      return fault.isSome) fault.isSome
      (Text.encodeUtf8 (Text.plain ("Executed " ++ toString executed ++ " instructions" ++ "\n")))
      id := by
  have counted : Gives (do
      printLine ("Executed " ++ toString executed ++ " instructions")
      return fault.isSome) fault.isSome
      (Text.encodeUtf8 (Text.plain ("Executed " ++ toString executed ++ " instructions" ++ "\n")))
      id := (gives_printBytes _).before (.pure _)
  cases fault with
  | none => exact counted
  | some fault => exact (gives_reportLine _).after counted

theorem savePicture_agree (renderer : Option Renderer) (screen : Framebuffer) (path : Path)
    {session session' : Session} (alike : session.Alike prompt session') :
    Agree prompt Eq (savePicture renderer screen path session)
      (savePicture renderer screen path session') := by
  unfold savePicture
  rcases screen.render? renderer cellSize with - | error | data
  · exact .of_gives_self (gives_reportLine _) alike
  · exact ⟨rfl, alike⟩
  · exact writeFile_agree path data alike

/-- Runs that end the same are reported the same, and leave the same picture. -/
theorem report_agree (options : RunOptions) (renderer : Option Renderer)
    {machine : ToolMachine τ} {second : ToolMachine τ'} (same : second.bare = machine.bare)
    {session session' : Session} (alike : session.Alike prompt session') :
    Agree prompt Eq (options.report renderer machine session)
      (options.report renderer second session') := by
  have status : second.status = machine.status := congrArg (fun machine ↦ machine.status) same
  have executed : second.executed = machine.executed :=
    congrArg (fun machine ↦ machine.executed) same
  have screen : second.world.screen = machine.world.screen :=
    congrArg (fun machine ↦ machine.world.screen) same
  unfold report
  rw [status, executed, screen]
  cases options.picture with
  | none => exact .of_gives_self (gives_ending machine.status.fault? machine.executed) alike
  | some path =>
    exact (savePicture_agree renderer machine.world.screen path alike).bind fun _ _ alike ↦
      .of_gives_self (gives_ending machine.status.fault? machine.executed) alike

section

variable [Clock τ] [Clock τ'] {clock : τ} {input : List UInt8} {session : Session} {lines : Nat}
  (unasking : ∀ machine later,
    options.machineOf platform.available clock environment input code session =
      .ok machine later → RunsUnasking machine lines)
  (takes : platform.prompter.TakesNewlines prompt)
include unasking takes

/-- The machine ends the same in single-step mode. -/
theorem execute_agree (clock' : τ') :
    Agree prompt (fun machine second ↦ second.bare = machine.bare)
      ({ options with debug := false }.execute platform clock environment input code session)
      ({ options with debug := true }.execute platform clock' environment
        (List.replicate lines 10) code session) := by
  refine (machineOf_agree clock clock' input _ session).bind
    fun {machine second later later'} known ready alike ↦ ?_
  obtain ⟨entered, last, runs⟩ := machine.exists_runs
  obtain ⟨enough, unasking⟩ := unasking machine later known _ _ runs
  obtain ⟨final, bare, plain⟩ := gives_runPlain runs unasking ready.printed
  have enters := takes lines
  rw [← ready.input] at enters
  obtain ⟨final', bare', debug⟩ :=
    gives_runDebug runs ready.running unasking ready.bare ready.printed' enters enough
  exact .of_gives plain debug (bare'.trans bare.symm)
    ((prompted_steps entered).append (.same last.shows)) alike

theorem run_agree (clock' : τ') :
    Agree prompt Eq
      ({ options with debug := false }.run platform clock environment input code session)
      ({ options with debug := true }.run platform clock' environment (List.replicate lines 10)
        code session) :=
  (execute_agree unasking takes clock').bind fun _ same alike ↦
    report_agree options platform.renderer same alike

end

end RunOptions

/-! ## The tool -/

/-- A session of its own that comes to an error reports it. -/
theorem Outcome.ofSession_eq {verbose : Bool} {workspace : Workspace} (action : SessionM Nat) :
    Outcome.ofSession verbose workspace action =
      match action ⟨verbose, workspace, #[], #[]⟩ with
      | .ok exit session =>
        ⟨exit, session.workspace.tree, session.output.toList, session.errors.toList⟩
      | .error error session =>
        ⟨error.exit, session.workspace.tree, session.output.toList,
          (session.errors ++ Text.encodeUtf8 (Text.plain (error.message ++ "\n"))).toList⟩ := by
  unfold Outcome.ofSession
  dsimp only [EStateM.run, tryCatch, tryCatchThe, MonadExceptOf.tryCatch, EStateM.tryCatch]
  cases action ⟨verbose, workspace, #[], #[]⟩ <;> rfl

/-- A tool that ends alike in sessions that agree leaves the same exit code and the same tree. -/
theorem Agree.outcome {verbose : Bool} {workspace : Workspace} {plain debug : SessionM Nat}
    (agree : Agree prompt Eq (plain ⟨verbose, workspace, #[], #[]⟩)
      (debug ⟨verbose, workspace, #[], #[]⟩)) :
    (Outcome.ofSession verbose workspace debug).exit =
        (Outcome.ofSession verbose workspace plain).exit ∧
      (Outcome.ofSession verbose workspace debug).tree =
        (Outcome.ofSession verbose workspace plain).tree ∧
      Prompted prompt (Outcome.ofSession verbose workspace plain).output
        (Outcome.ofSession verbose workspace debug).output := by
  rw [Outcome.ofSession_eq, Outcome.ofSession_eq]
  cases known : plain ⟨verbose, workspace, #[], #[]⟩ <;>
    cases known' : debug ⟨verbose, workspace, #[], #[]⟩ <;>
    rw [known, known'] at agree
  case ok.ok exit session exit' session' =>
    obtain ⟨rfl, -, workspace, output⟩ := agree
    exact ⟨rfl, congrArg Workspace.tree workspace, output⟩
  case error.error error session error' session' =>
    obtain ⟨rfl, -, workspace, output⟩ := agree
    exact ⟨rfl, congrArg Workspace.tree workspace, output⟩
  case ok.error => exact agree.elim
  case error.ok => exact agree.elim

namespace Tool

variable {σ τ τ' : Type} [Clock τ] [Clock τ'] {platform : Platform σ} {clock : τ}
  {options : RunOptions} {path : Path} {invocation : Invocation} {lines : Nat}

/-- Reading a file looks at the files of a session only. -/
theorem readFile_eq (session : Session) : readFile path session =
    match path.locate session.workspace with
    | .ok (_, some (.file data)) => .ok data session
    | .ok (_, some .directory) => .error (.file .isDirectory path.text) session
    | .ok (_, none) => .error (.file .notFound path.text) session
    | .error error => .error (.file error path.text) session := by
  have got : (get : SessionM Session) session = .ok session session := rfl
  rw [readFile, bind_of_ok got]
  rcases path.locate session.workspace with error | ⟨names, none | entry | entry⟩ <;> rfl

/-- A file that is read in one session is read in all that have the same files. -/
theorem readFile_of_workspace {code : List UInt8} {session later other : Session}
    (read : readFile path session = .ok code later)
    (same : other.workspace = session.workspace) :
    later = session ∧ readFile path other = .ok code other := by
  rw [readFile_eq] at read
  rw [readFile_eq, same]
  split at read <;> cases read
  exact ⟨rfl, rfl⟩

theorem performRun_agree
    (unasking : ∀ session code machine later, session.workspace = invocation.workspace →
      readFile path session = .ok code session →
      options.machineOf platform.available clock invocation.environment invocation.input code
        session = .ok machine later → RunsUnasking machine lines)
    (takes : platform.prompter.TakesNewlines prompt) (clock' : τ') {session : Session}
    (workspace : session.workspace = invocation.workspace) :
    Agree prompt Eq
      (performRun platform clock path { options with debug := false } invocation session)
      (performRun platform clock' path { options with debug := true }
        { invocation with input := List.replicate lines 10 } session) := by
  unfold performRun
  refine Agree.after fun code later read ↦ Agree.after fun _ told spoken ↦ ?_
  -- The program is read before the report on it and run after it, so the files must be the same.
  have heard : told.workspace = later.workspace := by
    obtain ⟨errors, done⟩ := gives_whenVerbose (gives_reportLine
      ("Loaded " ++ toString code.length ++ " bytes from " ++ path.text)) later
    rw [spoken] at done
    cases done
    rfl
  obtain ⟨rfl, -⟩ := readFile_of_workspace read rfl
  have read' := (readFile_of_workspace read heard).2
  refine (run_agree (fun machine later ↦ unasking told code machine later
    (heard.trans workspace) read') takes clock').bind
      fun {faulted faulted' later later'} _ same alike ↦ ?_
  subst same
  exact .of_gives_self (.pure _) alike

/--
A program that asks neither for input nor for the time runs in single-step mode as it runs at once,
on any clock, if there are as many empty lines as it takes steps and the prompt takes them as such.
The machine ends the same but for its input, its clock and its log, or there is the same error; the
exit code and the files, a picture among them, are the same, and the output is the same but for
prompts.
-/
theorem debug_agrees
    (unasking : ∀ session code machine later, session.workspace = invocation.workspace →
      readFile path session = .ok code session →
      options.machineOf platform.available clock invocation.environment invocation.input code
        session = .ok machine later → RunsUnasking machine lines)
    (takes : platform.prompter.TakesNewlines prompt) (clock' : τ') (verbose : Bool) :
    let entering : Invocation := { invocation with input := List.replicate lines 10 }
    let plain : RunOptions := { options with debug := false }
    let debug : RunOptions := { options with debug := true }
    (∀ session code, session.workspace = invocation.workspace →
      readFile path session = .ok code session →
      Agree prompt (fun machine second ↦ second.bare = machine.bare)
        (plain.execute platform clock invocation.environment invocation.input code session)
        (debug.execute platform clock' entering.environment entering.input code session)) ∧
    let first := Outcome.ofSession verbose invocation.workspace
      (performRun platform clock path plain invocation)
    let second := Outcome.ofSession verbose invocation.workspace
      (performRun platform clock' path debug entering)
    second.exit = first.exit ∧ second.tree = first.tree ∧
      Prompted prompt first.output second.output :=
  ⟨fun session code workspace read ↦
      execute_agree (fun machine later ↦ unasking session code machine later workspace read) takes
        clock',
    (performRun_agree unasking takes clock' rfl).outcome⟩

/-- A program of one word prints a zero byte and is left, which takes two lines. -/
theorem debug_agrees_print :
    let code : List UInt8 := Word.toBytes (Instruction.exception .svc 0x101).encode
    let invocation : Invocation :=
      ⟨[], ⟨⟨[(["p"], .file code)]⟩, []⟩, [("ARMLET_MEMORY_SIZE", "4")], []⟩
    let platform : Platform Answers := ⟨64, .echoing, none⟩
    let clock := ManualClock.startingAt 0
    let plain := Outcome.ofSession false invocation.workspace
      (performRun platform clock ⟨0, ["p"]⟩ ⟨false, none, none, none⟩ invocation)
    let debug := Outcome.ofSession false invocation.workspace
      (performRun platform clock ⟨0, ["p"]⟩ ⟨true, none, none, none⟩
        { invocation with input := [10, 10] })
    debug.exit = plain.exit ∧ debug.tree = plain.tree ∧
      Prompted (Text.encodeUtf8 " \n") plain.output debug.output := by
  intro code invocation platform clock plain debug
  let config : Config := { memorySize := 4 }
  let options : RunOptions := ⟨false, none, none, none⟩
  let host : Host BufferConsole ToolStore ManualClock := ⟨.ofInput [], .memory .empty, clock⟩
  let blank := Machine.ofMemory config ⟨0, #[], 0⟩ host #[]
  obtain ⟨start, begun⟩ : ∃ start, start =
      ((Machine.new 64 config host).bind (Machine.load code)).toOption.getD blank := ⟨_, rfl⟩
  have made : (Machine.new 64 config host).bind (Machine.load code) = .ok start := by
    rw [begun]
    rfl
  have goes : (drained start).step.1 = true := by
    rw [begun]
    decide +kernel
  have stops : (drained start).step.2.step.1 = false := by
    rw [begun]
    decide +kernel
  have unasking : (drained start).asks = false ∧ (drained start).step.2.asks = false := by
    rw [begun]
    decide +kernel
  have runs : RunsUnasking (drained start) 2 := by
    intro entered last runs
    cases runs with
    | stop stops => rw [goes] at stops; cases stops
    | next _ runs =>
      cases runs with
      | stop _ => exact ⟨Nat.le_refl 2, by simpa using unasking⟩
      | next goes _ => rw [stops] at goes; cases goes
  have whole (session : Session) (read : List UInt8) (machine : ToolMachine ManualClock)
      (later : Session) (workspace : session.workspace = invocation.workspace)
      (found : readFile ⟨0, ["p"]⟩ session = .ok read session)
      (ready : options.machineOf platform.available clock invocation.environment invocation.input
        read session = .ok machine later) : RunsUnasking machine 2 := by
    have same : readFile ⟨0, ["p"]⟩ ⟨false, invocation.workspace, #[], #[]⟩ =
      .ok code ⟨false, invocation.workspace, #[], #[]⟩ := rfl
    have found' := (readFile_of_workspace same workspace).2
    rw [found'] at found
    cases found
    have configured : configOf options invocation.environment session = .ok config session := rfl
    have stored : storeOf options session = .ok (.memory .empty) session := rfl
    rw [machineOf, bind_of_ok configured, bind_of_ok stored, loaded, made] at ready
    obtain ⟨errors, done⟩ := gives_drain start session
    dsimp only at ready
    rw [done] at ready
    cases ready
    exact runs
  have takes : platform.prompter.TakesNewlines (Text.encodeUtf8 " \n") :=
    Prompter.echoing_takesNewlines
  exact (debug_agrees whole takes clock false).2

end Tool

end MiniA64
