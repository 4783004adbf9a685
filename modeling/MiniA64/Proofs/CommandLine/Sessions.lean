import MiniA64.CommandLine.Session

/-!
# Actions that do not fail

What a session comes to under actions that always succeed: each prints some output and changes the
tree of files in some way, and what it reports as errors is left open.
-/

namespace MiniA64

namespace Session

variable {α β : Type}

/--
In every session the action ends with the answer. It prints the output and changes the tree, and it
may report errors.
-/
def Gives (action : SessionM α) (answer : α) (output : List UInt8) (change : FileTree → FileTree) :
    Prop :=
  ∀ session : Session, ∃ errors, action session = .ok answer
    { session with
      workspace := { session.workspace with tree := change session.workspace.tree }
      output := session.output ++ output
      errors }

theorem bind_of_ok {action : SessionM α} {next : α → SessionM β} {session later : Session}
    {answer : α} (done : action session = .ok answer later) :
    (action >>= next) session = next answer later := by
  show EStateM.bind action next session = _
  rw [EStateM.bind, done]

theorem bind_of_error {action : SessionM α} {next : α → SessionM β} {session later : Session}
    {error : ToolError} (failed : action session = .error error later) :
    (action >>= next) session = .error error later := by
  show EStateM.bind action next session = _
  rw [EStateM.bind, failed]

namespace Gives

theorem pure (answer : α) : Gives (pure answer) answer [] id :=
  fun session ↦ ⟨session.errors, rfl⟩

variable {action : SessionM α} {next : α → SessionM β} {answer : α} {last : β}
  {output later : List UInt8} {change change' : FileTree → FileTree}

theorem bind (first : Gives action answer output change)
    (second : Gives (next answer) last later change') :
    Gives (action >>= next) last (output ++ later) (change' ∘ change) := by
  intro session
  obtain ⟨errors, done⟩ := first session
  obtain ⟨errors', done'⟩ := second
    { session with
      workspace := { session.workspace with tree := change session.workspace.tree }
      output := session.output ++ output
      errors }
  refine ⟨errors', ?_⟩
  have whole : session.output ++ output ++ later = session.output ++ (output ++ later) := by
    apply Array.toList_inj.mp
    simp only [Array.toList_appendList, List.append_assoc]
  rw [bind_of_ok done, done', whole]
  rfl

/-- An action that may report errors and does nothing else. -/
theorem after (quiet : Gives action answer [] id)
    (second : Gives (next answer) last output change) :
    Gives (action >>= next) last output change :=
  quiet.bind second

/-- The same where the second action is such. -/
theorem before (first : Gives action answer output change)
    (quiet : Gives (next answer) last [] id) : Gives (action >>= next) last output change := by
  have whole := first.bind quiet
  rwa [List.append_nil] at whole

theorem congr {output' : List UInt8} (gives : Gives action answer output change)
    (same : output = output') (same' : change = change') :
    Gives action answer output' change' :=
  same ▸ same' ▸ gives

end Gives

/-! ## The actions of a tool -/

theorem gives_printBytes (data : List UInt8) : Gives (printBytes data) () data id :=
  fun session ↦ ⟨session.errors, rfl⟩

theorem gives_reportText (text : String) : Gives (reportText text) () [] id :=
  fun _ ↦ ⟨_, rfl⟩

theorem gives_reportLine (line : String) : Gives (reportLine line) () [] id :=
  gives_reportText _

theorem gives_keepTree (tree : FileTree) : Gives (keepTree tree) () [] fun _ ↦ tree :=
  fun session ↦ ⟨session.errors, rfl⟩

theorem gives_whenVerbose {action : SessionM Unit} (quiet : Gives action () [] id) :
    Gives (whenVerbose action) () [] id := by
  intro session
  show ∃ errors, (if session.verbose = true then action else pure ()) session = _
  split
  · exact quiet session
  · exact Gives.pure () session

theorem gives_showRecord (record : LogRecord) : Gives (showRecord record) () [] id := by
  intro session
  show ∃ errors, (if session.verbose = true then reportText _
    else if record.level = .warning then reportText _ else pure ()) session = _
  split
  · exact gives_reportText _ session
  split
  · exact gives_reportText _ session
  · exact Gives.pure () session

theorem gives_showRecords (records : List LogRecord) : Gives (showRecords records) () [] id := by
  induction records with
  | nil => exact .pure ()
  | cons record records ih => exact (gives_showRecord record).after ih

end Session

end MiniA64
