import MiniA64.CommandLine.Tool
import MiniA64.Proofs.CommandLine.Sessions
import MiniA64.Proofs.Machine.Unasking

/-!
# Single steps and runs at once

The two ways to run a program end with the same bare machine. Single-step mode moves the output and
the files to the session after each step, and a run at once moves them when it has ended; both have
moved the same then, since the files of the last move are those that stay.
-/

namespace MiniA64

/-! ## Files that are kept -/

/-- The tree with the files of a store, if the store keeps them there. -/
def ToolStore.keep : ToolStore → FileTree → FileTree
  | directory store, _ => store.tree
  | memory _, tree => tree

theorem ToolStore.keep_keep (store : ToolStore) : store.keep ∘ store.keep = store.keep := by
  cases store <;> rfl

theorem ToolStore.shows_directory : ShowsFiles directory :=
  ⟨fun _ _ ↦ rfl, fun _ _ _ ↦ rfl, fun _ _ ↦ rfl, fun _ _ ↦ rfl, fun _ _ ↦ rfl⟩

/-- Sees a directory as the store of a tool. -/
def View.directory (κ τ : Type) [Console κ] [Clock τ] :
    View κ κ DirectoryStore ToolStore τ τ where
  console := id
  files := .directory
  clock := id
  log := id
  shows_console := .same
  shows_files := ToolStore.shows_directory
  shows_clock := .same
  shows_log := .same

namespace Machine

variable {κ τ τ' : Type} [Console κ] [Clock τ]

/-- Files that are kept after a step need not have been kept before. -/
theorem keep_step (machine : Machine κ ToolStore τ) :
    machine.step.2.world.host.files.keep ∘ machine.world.host.files.keep =
      machine.step.2.world.host.files.keep := by
  cases files : machine.world.host.files with
  | memory store => rfl
  | directory store =>
    let inner : Machine κ DirectoryStore τ :=
      { config := machine.config
        world :=
          { memory := machine.world.memory
            screen := machine.world.screen
            seed := machine.world.seed
            host := ⟨machine.world.host.console, store, machine.world.host.clock⟩
            log := machine.world.log }
        registers := machine.registers
        status := machine.status
        executed := machine.executed
        depth := machine.depth }
    have same : machine = inner.seen (.directory κ τ) := by
      obtain ⟨_, ⟨_, _, _, ⟨_, _, _⟩, _⟩, _⟩ := machine
      cases files
      rfl
    rw [same, step_seen]
    rfl

theorem Runs.keep {machine last : Machine κ ToolStore τ}
    {entered : List (Machine κ ToolStore τ)} (runs : Runs machine entered last) :
    last.world.host.files.keep ∘ machine.world.host.files.keep = last.world.host.files.keep := by
  induction runs with
  | stop stops => exact keep_step _
  | next goes runs ih => rw [← ih, Function.comp_assoc, keep_step]

/-- What a screen in use shows. -/
def shows {φ : Type} (machine : Machine κ φ τ) : List UInt8 :=
  if machine.world.screen.isActive then machine.world.screen.ansi else []

end Machine

namespace RunOptions

open Session Machine

variable {σ τ τ' : Type}

/-! ## The parts of a run -/

/-- The machine when its output and its log have been taken. -/
def drained (machine : ToolMachine τ) : ToolMachine τ :=
  { machine with
    world := { machine.world with
      log := #[]
      host := { machine.world.host with console := machine.world.host.console.clear } } }

/-- The files of a directory are kept before an answer. -/
theorem gives_kept (store : ToolStore) {α : Type} (answer : α) :
    Gives (match store with
      | .directory store => keepTree store.tree >>= fun _ ↦ pure answer
      | .memory _ => pure answer) answer [] store.keep := by
  cases store with
  | memory store => exact .pure answer
  | directory store => exact (gives_keepTree store.tree).before (.pure answer)

theorem gives_drain (machine : ToolMachine τ) :
    Gives (drain machine) (drained machine) machine.printed machine.world.host.files.keep :=
  ((gives_printBytes _).bind ((gives_showRecords _).after (gives_kept _ _))).congr
    (List.append_nil _) rfl

/-- Nothing but the console changes when a framebuffer is shown. -/
theorem flush_eq (machine : ToolMachine τ) :
    machine.flush.1 = .ok () ∧ machine.flush.2.printed = machine.printed ++ machine.shows ∧
      machine.flush.2.bare = machine.bare := by
  unfold flush shows
  split
  · exact ⟨rfl, Array.toList_appendList, rfl⟩
  · exact ⟨rfl, (List.append_nil _).symm, rfl⟩

theorem gives_showScreen (machine : ToolMachine τ) :
    ∃ last : ToolMachine τ, last.bare = machine.bare ∧ last.printed = [] ∧
      Gives (showScreen machine) last (machine.printed ++ machine.shows)
        machine.world.host.files.keep := by
  obtain ⟨done, printed, bare⟩ := flush_eq machine
  have files : machine.flush.2.world.host.files = machine.world.host.files :=
    congrArg (fun machine ↦ machine.world.host.files) bare
  refine ⟨drained machine.flush.2, bare, rfl, ?_⟩
  rw [← printed, ← files]
  unfold showScreen
  dsimp only
  rw [done]
  exact (gives_drain _).before (.pure _)

/-- A look at a machine adds to its log only. -/
theorem debugLine_eq (machine : ToolMachine τ) :
    machine.debugLine.2.bare = machine.bare ∧
      machine.debugLine.2.world.host = machine.world.host := by
  have read (address length : Int) :
      (machine.world.read address length).2 = machine.world ∨
        ∃ log, (machine.world.read address length).2 = { machine.world with log } := by
    unfold World.read
    split
    · exact .inl rfl
    · exact .inr ⟨_, rfl⟩
  unfold debugLine disassembleAt
  dsimp only
  rcases read machine.registers.pc _ with same | ⟨log, same⟩ <;> rw [same] <;> exact ⟨rfl, rfl⟩

theorem gives_showState (machine : ToolMachine τ) :
    ∃ shown : ToolMachine τ, shown.bare = machine.bare ∧ shown.printed = [] ∧
      shown.world.host.console.input = machine.world.host.console.input ∧
      Gives (showState machine) shown machine.printed machine.world.host.files.keep := by
  obtain ⟨bare, host⟩ := debugLine_eq machine
  have input : machine.debugLine.2.world.host.console.input = machine.world.host.console.input := by
    rw [host]
  have drains := gives_drain machine.debugLine.2
  rw [printed, host] at drains
  exact ⟨drained machine.debugLine.2, bare, rfl, input,
    drains.before ((gives_reportLine _).after (.pure _))⟩

variable {prompter : Prompter σ} {prompt : List UInt8}

/-- Nothing but the input changes where a line is entered. -/
theorem gives_ask {machine : ToolMachine τ} {state : σ} {count : Nat}
    (enters : prompter.Enters prompt (count + 1) state machine.world.host.console.input) :
    ∃ (state' : σ) (asked : ToolMachine τ), asked.bare = machine.bare ∧
      asked.printed = machine.printed ∧
      prompter.Enters prompt count state' asked.world.host.console.input ∧
      Gives (ask prompter state machine) (.line "", state', asked) prompt id := by
  obtain ⟨state', input, answered, enters'⟩ := enters
  let console : BufferConsole := { machine.world.host.console with input }
  let asked : ToolMachine τ :=
    { machine with world := { machine.world with host := { machine.world.host with console } } }
  refine ⟨state', asked, rfl, rfl, enters', ?_⟩
  unfold ask
  dsimp only
  rw [answered]
  exact (gives_printBytes _).before (.pure _)

/-! ## Single steps -/

variable [Clock τ']

/-- A machine that has ended shows its screen. -/
theorem gives_stepThrough_ended {machine : ToolMachine τ} {second : ToolMachine τ'}
    (same : second.bare = machine.bare) (ended : machine.isRunning = false)
    (taken : second.printed = []) (bound : Nat) (state : σ) :
    ∃ last : ToolMachine τ', last.bare = machine.bare ∧
      Gives (stepThrough prompter bound second state) last machine.shows
        machine.world.host.files.keep := by
  obtain ⟨last, bare, -, shown⟩ := gives_showScreen second
  have shows : second.shows = machine.shows :=
    congrArg (fun machine : Machine (Unheard BufferConsole) ToolStore Unit ↦ machine.shows) same
  have files : second.world.host.files = machine.world.host.files :=
    congrArg (fun machine ↦ machine.world.host.files) same
  have status : second.isRunning = false := by
    rw [← ended]
    exact congrArg isRunning same
  rw [taken, shows, files] at shown
  refine ⟨last, bare.trans same, ?_⟩
  cases bound with
  | zero => exact shown
  | succ bound =>
    rw [stepThrough, status]
    exact shown

variable [Clock τ]

/-- An empty line lets a machine take the step that another takes which is the same when bare. -/
theorem gives_stepThrough {machine : ToolMachine τ} {second : ToolMachine τ'} {state : σ}
    {count : Nat} (same : second.bare = machine.bare) (unasking : machine.asks = false)
    (running : machine.isRunning = true) (taken : second.printed = [])
    (enters : prompter.Enters prompt (count + 1) state second.world.host.console.input) :
    ∃ (state' : σ) (next : ToolMachine τ'), next.bare = machine.step.2.bare ∧
      next.printed = [] ∧ prompter.Enters prompt count state' next.world.host.console.input ∧
      ∀ {bound : Nat} {last : ToolMachine τ'} {output : List UInt8}
        {change : FileTree → FileTree},
        Gives (stepThrough prompter bound next state') last output change →
        Gives (stepThrough prompter (bound + 1) second state) last
          (prompt ++ machine.prints ++ output)
          (change ∘ machine.step.2.world.host.files.keep) := by
  obtain ⟨shown, showed, empty, input, shows⟩ := gives_showState second
  rw [← input] at enters
  obtain ⟨state', asked, answered, unchanged, enters', answer⟩ := gives_ask enters
  have alike : asked.bare = machine.bare := answered.trans (showed.trans same)
  obtain ⟨stepped, printed, kept⟩ := step_congr_bare alike unasking
  refine ⟨state', drained asked.step.2, stepped, rfl, ?_,
    fun {bound last output change} rest ↦ ?_⟩
  · show prompter.Enters prompt count state' asked.step.2.world.host.console.input
    rwa [kept]
  have files : second.world.host.files = machine.world.host.files :=
    congrArg (fun machine ↦ machine.world.host.files) same
  have files' : asked.step.2.world.host.files = machine.step.2.world.host.files :=
    congrArg (fun machine ↦ machine.world.host.files) stepped
  have status : second.isRunning = true := by
    rw [← running]
    exact congrArg isRunning same
  have drains := gives_drain asked.step.2
  rw [printed, unchanged, empty, List.nil_append, files'] at drains
  rw [taken, files] at shows
  have told : Gives (if isQuit "" then showScreen asked
      else do
        let machine ← drain asked.step.2
        stepThrough prompter bound machine state') last (machine.prints ++ output)
      (change ∘ machine.step.2.world.host.files.keep) := by
    have quit : isQuit "" = false := rfl
    rw [quit]
    exact drains.bind rest
  rw [stepThrough, status, List.append_assoc]
  refine Gives.congr (shows.bind (answer.bind told)) rfl ?_
  rw [Function.comp_id, Function.comp_assoc, keep_step]

/-- Steps that empty lines let a machine take print what the run prints, and end as it ends. -/
theorem gives_steps {machine last : ToolMachine τ} {entered : List (ToolMachine τ)}
    (runs : Runs machine entered last) (running : machine.isRunning = true)
    (unasking : ∀ now ∈ entered, now.asks = false) {second : ToolMachine τ'} {state : σ}
    {count bound : Nat} (same : second.bare = machine.bare) (taken : second.printed = [])
    (enters : prompter.Enters prompt count state second.world.host.console.input)
    (enough : entered.length ≤ count) (bounded : entered.length ≤ bound) :
    ∃ final : ToolMachine τ', final.bare = last.bare ∧
      Gives (stepThrough prompter bound second state) final
        ((entered.map fun now ↦ prompt ++ now.prints).flatten ++ last.shows)
        last.world.host.files.keep := by
  -- Each round takes one of the lines and one of the bound, so both last as long as the run.
  induction runs generalizing second state count bound with
  | @stop machine stops =>
    obtain ⟨count, rfl⟩ : ∃ fewer, count = fewer + 1 := ⟨count - 1, by grind⟩
    obtain ⟨bound, rfl⟩ : ∃ fewer, bound = fewer + 1 := ⟨bound - 1, by grind⟩
    obtain ⟨state', next, stepped, empty, -, round⟩ :=
      gives_stepThrough same (unasking _ List.mem_cons_self) running taken enters
    rw [step_fst] at stops
    obtain ⟨final, bare, shown⟩ := gives_stepThrough_ended stepped stops empty bound state'
    refine ⟨final, bare, (round shown).congr ?_ ?_⟩
    · simp only [List.map_singleton, List.flatten_singleton]
    · exact ToolStore.keep_keep _
  | @next machine last entered goes runs ih =>
    obtain ⟨count, rfl⟩ : ∃ fewer, count = fewer + 1 := ⟨count - 1, by grind⟩
    obtain ⟨bound, rfl⟩ : ∃ fewer, bound = fewer + 1 := ⟨bound - 1, by grind⟩
    obtain ⟨state', next, stepped, empty, enters', round⟩ :=
      gives_stepThrough same (unasking _ List.mem_cons_self) running taken enters
    rw [step_fst] at goes
    obtain ⟨final, bare, shown⟩ := ih goes
      (fun now among ↦ unasking now (List.mem_cons_of_mem _ among)) stepped empty enters'
      (Nat.le_of_succ_le_succ enough) (Nat.le_of_succ_le_succ bounded)
    refine ⟨final, bare, (round shown).congr ?_ runs.keep⟩
    simp only [List.map_cons, List.flatten_cons, List.append_assoc]

theorem gives_runDebug {machine last : ToolMachine τ} {entered : List (ToolMachine τ)}
    (runs : Runs machine entered last) (running : machine.isRunning = true)
    (unasking : ∀ now ∈ entered, now.asks = false) {second : ToolMachine τ'} {lines : Nat}
    (same : second.bare = machine.bare) (taken : second.printed = [])
    (enters : prompter.Enters prompt lines prompter.start second.world.host.console.input)
    (enough : entered.length ≤ lines) :
    ∃ final : ToolMachine τ', final.bare = last.bare ∧ Gives (runDebug prompter second) final
      ((entered.map fun now ↦ prompt ++ now.prints).flatten ++ last.shows)
      last.world.host.files.keep := by
  have budget : second.budget = machine.budget := congrArg (fun machine ↦ machine.budget) same
  have bounded : entered.length ≤ second.budget + 1 := by
    have fewer := runs.length_le
    rw [budget, Machine.budget]
    omega
  obtain ⟨final, bare, gives⟩ :=
    gives_steps runs running unasking same taken enters enough bounded
  exact ⟨final, bare, (gives_reportLine _).after gives⟩

theorem gives_runPlain {machine last : ToolMachine τ} {entered : List (ToolMachine τ)}
    (runs : Runs machine entered last) (unasking : ∀ now ∈ entered, now.asks = false)
    (taken : machine.printed = []) :
    ∃ final : ToolMachine τ, final.bare = last.bare ∧ Gives (runPlain machine) final
      ((entered.map prints).flatten ++ last.shows) last.world.host.files.keep := by
  obtain ⟨final, bare, -, shown⟩ := gives_showScreen (drained last.noteEnd)
  have printed : last.noteEnd.printed = (entered.map prints).flatten := by
    show last.printed = _
    rw [runs.printed unasking, taken, List.nil_append]
  have drains := gives_drain last.noteEnd
  rw [printed] at drains
  refine ⟨final, bare, ?_⟩
  rw [runPlain, runs.run_eq]
  exact Gives.congr (drains.bind shown) rfl (ToolStore.keep_keep _)

end RunOptions

end MiniA64
