import MiniA64.Assembly.Effort
import MiniA64.Proofs.Assembly.Diagnostics
import MiniA64.Proofs.Assembly.Pulling
import MiniA64.Proofs.Assembly.Trial.Data
import MiniA64.Proofs.Assembly.Trial.Dispatch
import MiniA64.Proofs.Assembly.Trial.Reading

/-!
# Efforts that lapse at a limit only

An assembly by trials does the work of the generator. Each trial follows the step that it stands
for, so an effort that is made of trials leaves the state that the work leaves and ends as it does.
The nodes of a program that has been read are there when they are looked up, because the numbers
of its statements and operands are below the count of its nodes.

What the effort may end with besides is a limit: one that the source exceeds while it is read, or
that of printing, where the diagnostic of the work has a number too long for its message.
-/

namespace MiniA64

namespace Effort

open Generator (Work)
open Trial (Keeps Follows)

/-! ## Efforts and work -/

/-- The answer of an effort on a generator, and what becomes of the generator. -/
def after {α : Type} (generator : Generator) (effort : Effort α) :
    Except Raised α × Generator :=
  (ExceptT.run effort).run generator

/--
How an effort ends, and in which state, where some work ends so: with what is read off its result, or
with its diagnostic. A diagnostic whose message cannot be written is not handled as one.
-/
inductive Ends {α β : Type} (read : α → β) :
    Except Raised β × Generator → Except Diagnostic α × Generator → Prop
  | done (result : α) (later : Generator) : Ends read (.ok (read result), later) (.ok result, later)
  | refused {diagnostic : Diagnostic} (later : Generator)
    (printable : diagnostic.error.IsPrintable) :
    Ends read (.error (.diagnostic diagnostic), later) (.error diagnostic, later)
  | unwritten {diagnostic : Diagnostic} (last later : Generator)
    (long : ¬diagnostic.error.IsPrintable) :
    Ends read (.error (.lapse (.limit .printing)), last) (.error diagnostic, later)

/-- The effort ends as some work does, on every generator. -/
structure Performs {α β : Type} (read : α → β) (effort : Effort β) (work : Work α) : Prop where
  ends : ∀ generator : Generator, Ends read (after generator effort) (generator.after work)

/-- The effort does some work. -/
abbrev Does {α : Type} (effort : Effort α) (work : Work α) : Prop :=
  Performs (fun result ↦ result) effort work

section

variable {α β γ δ : Type} {read : α → β} {effort : Effort β} {work : Work α} {generator : Generator}

theorem Ends.of (read : α → β) (answer : Except Diagnostic α) (later : Generator) :
    Ends read (Trial.settle (answer.map read), later) (answer, later) := by
  cases answer with
  | ok result => exact .done result later
  | error diagnostic =>
    by_cases printable : diagnostic.error.IsPrintable
    · have raised : Raised.of diagnostic = .diagnostic diagnostic := if_pos printable
      rw [Except.map, Trial.settle, Except.mapError, raised]
      exact .refused later printable
    · have raised : Raised.of diagnostic = .lapse (.limit .printing) := if_neg printable
      rw [Except.map, Trial.settle, Except.mapError, raised]
      exact .unwritten later later printable

theorem Ends.answer_eq {ended : Except Raised β × Generator}
    {done : Except Diagnostic α × Generator} (ends : Ends read ended done) :
    ended.1 = Trial.settle (done.1.map read) := by
  cases ends with
  | done => rfl
  | refused later printable => exact congrArg Except.error (if_pos printable).symm
  | unwritten last later long => exact congrArg Except.error (if_neg long).symm

@[simp]
theorem ofTrial_ok_bind (value : α) (next : α → Effort β) :
    ofTrial (.ok value) >>= next = next value := rfl

theorem after_bind (generator : Generator) (effort : Effort β) (next : β → Effort δ) :
    after generator (effort >>= next) =
      match after generator effort with
      | (.ok value, later) => after later (next value)
      | (.error reason, later) => (.error reason, later) := by
  have bound : after generator (effort >>= next) =
      (ExceptT.bindCont next (after generator effort).1).run (after generator effort).2 := rfl
  rw [bound]
  obtain ⟨_ | _, later⟩ := after generator effort <;> rfl

theorem after_orElse (generator : Generator) (effort : Effort β)
    (handle : Diagnostic → Effort β) :
    after generator (orElse effort handle) =
      match after generator effort with
      | (.error (.diagnostic diagnostic), later) => after later (handle diagnostic)
      | (answer, later) => (answer, later) := by
  unfold after orElse
  simp only [tryCatch, tryCatchThe, MonadExceptOf.tryCatch, ExceptT.tryCatch, ExceptT.run,
    ExceptT.mk, StateT.run_bind]
  generalize StateT.run effort generator = outcome
  obtain ⟨(diagnostic | reason) | value, later⟩ := outcome <;> rfl

theorem Ends.bind {next : β → Effort δ} {rest : α → Work γ} {last : γ → δ}
    (begun : Ends read (after generator effort) (generator.after work))
    (ended : ∀ result, Performs last (next (read result)) (rest result)) :
    Ends last (after generator (effort >>= next)) (generator.after (work >>= rest)) := by
  rw [after_bind, generator.after_bind]
  generalize after generator effort = ran at begun
  generalize generator.after work = done at begun
  cases begun with
  | done result later => exact (ended result).ends later
  | refused later printable => exact .refused later printable
  | unwritten before later long => exact .unwritten before later long

/-- A handler that passes its error on passes on that its message cannot be written. -/
theorem Ends.orElse {handle : Diagnostic → Effort β} {handler : Diagnostic → Work α}
    (tried : Ends read (after generator effort) (generator.after work))
    (handled : ∀ diagnostic, diagnostic.error.IsPrintable →
      Performs read (handle diagnostic) (handler diagnostic))
    (passes : ∀ diagnostic later, ∃ other last,
      Generator.after later (handler diagnostic) = (.error other, last) ∧
        other.error = diagnostic.error) :
    Ends read (after generator (orElse effort handle))
      (generator.after (tryCatch work handler)) := by
  rw [after_orElse, generator.after_tryCatch]
  generalize after generator effort = ran at tried
  generalize generator.after work = done at tried
  cases tried with
  | done result later => exact .done result later
  | refused later printable => exact (handled _ printable).ends later
  | unwritten before later long =>
    obtain ⟨other, last, ended, same⟩ := passes _ later
    dsimp only
    rw [ended]
    exact .unwritten before last (same ▸ long)

theorem Performs.bind {next : β → Effort δ} {rest : α → Work γ} {last : γ → δ}
    (begun : Performs read effort work)
    (ended : ∀ result, Performs last (next (read result)) (rest result)) :
    Performs last (effort >>= next) (work >>= rest) :=
  ⟨fun generator ↦ (begun.ends generator).bind ended⟩

theorem Performs.get : Does get get := ⟨fun generator ↦ .done generator generator⟩

theorem Performs.set (generator : Generator) : Does (set generator) (set generator) :=
  ⟨fun _ ↦ .done () generator⟩

theorem Performs.modify (change : Generator → Generator) :
    Does (modify change) (modify change) := ⟨fun generator ↦ .done () (change generator)⟩

theorem Performs.pure (read : α → β) (result : α) :
    Performs read (pure (read result)) (pure result) := ⟨fun generator ↦ .done result generator⟩

theorem Performs.throw (read : α → β) {diagnostic : Diagnostic}
    (printable : diagnostic.error.IsPrintable) :
    Performs read (throw (.diagnostic diagnostic)) (throw diagnostic) :=
  ⟨fun generator ↦ .refused generator printable⟩

theorem Performs.ofWork (work : Work α) : Does (ofWork work) work := by
  refine ⟨fun generator ↦ ?_⟩
  have ran : after generator (Effort.ofWork work) =
      (Trial.settle (generator.after work).1, (generator.after work).2) := rfl
  have same : (generator.after work).1.map (fun result ↦ result) = (generator.after work).1 := by
    cases (generator.after work).1 <;> rfl
  rw [ran, ← same]
  exact .of _ (generator.after work).1 (generator.after work).2

theorem Performs.ofTrial {trial : Trial β} {step : Except Diagnostic α}
    (keeps : Keeps read trial step) :
    Performs read (ofTrial trial) (Generator.settle step) := by
  rw [Keeps] at keeps
  exact ⟨fun generator ↦ keeps ▸ .of read step generator⟩

theorem Performs.ite {condition : Prop} [Decidable condition] {other : Effort β}
    {otherWork : Work α} (positive : condition → Performs read effort work)
    (negative : ¬condition → Performs read other otherWork) :
    Performs read (if condition then effort else other)
      (if condition then work else otherWork) := by
  split
  · exact positive ‹_›
  · exact negative ‹_›

theorem Performs.forM {items : List α} {effort : α → Effort Unit} {work : α → Work Unit}
    (does : ∀ item ∈ items, Does (effort item) (work item)) :
    Does (items.forM effort) (items.forM work) := by
  induction items with
  | nil => exact .pure _ _
  | cons item rest ih =>
    refine (does item List.mem_cons_self).bind fun _ ↦ ih ?_
    exact fun other member ↦ does other (List.mem_cons_of_mem _ member)

theorem forM_map (items : List α) (change : α → β) (effort : β → Effort Unit) :
    (items.map change).forM effort = items.forM fun item ↦ effort (change item) := by
  induction items with
  | nil => rfl
  | cons item rest ih => rw [List.map_cons, List.forM, List.forM, ih]

end

/-! ## Arguments -/

section

variable {program : Program} {operands : List Operand}

theorem nodes_eq (made : ∀ operand ∈ operands, operand.slot < program.nodes) :
    Trial.nodes program operands = .ok (operands.map Operand.node) := by
  unfold Trial.nodes
  induction operands with
  | nil => rfl
  | cons operand rest ih =>
    have found : Trial.node program operand = .ok operand.node := by
      rw [Trial.node, Trial.visit, if_pos (made operand List.mem_cons_self)]
      rfl
    rw [List.mapM_cons, found, ih fun other member ↦ made other (List.mem_cons_of_mem _ member)]
    rfl

end

/-! ## Symbols -/

theorem performs_refuse {α β : Type} (read : α → β) (location : Location)
    (error : DirectiveError) :
    Performs read (refuse location error) (Generator.settle (Padding.refuse location error)) :=
  .ofTrial rfl

theorem does_declare (argument : Operand) :
    Does (declare argument.node) (Generator.declare argument) := by
  obtain ⟨slot, location, kind⟩ := argument
  cases kind with
  | symbol name =>
    exact Performs.get.bind fun generator ↦ (Performs.ofTrial (.settle _)).bind fun symbols ↦ .set _
  | _ => exact performs_refuse ..

theorem does_defineConstant (directive : Directive) (location : Location)
    (arguments : List Operand) :
    Does (defineConstant directive location (arguments.map Operand.node))
      (Generator.defineConstant directive location arguments) := by
  unfold Generator.defineConstant
  split
  · rename_i slot place name argument
    have binds : isBinding ([⟨slot, place, .symbol name⟩, argument].map Operand.node) =
        .ok true := rfl
    unfold defineConstant
    rw [binds, ofTrial_ok_bind, if_pos rfl]
    refine Performs.get.bind fun generator ↦ ?_
    have defines {answer : Except Diagnostic Int}
        (follows : Follows (Trial.valueOf generator.symbols argument.node .constantValue) answer) :
        Does
          (do
            let bound ← ofTrial (binding generator.symbols [⟨.symbol name, place⟩, argument.node])
            ofWork (Generator.define bound.1 bound.2 location
              (if directive = .set then .variable else .constant)))
          (do
            let value ← Generator.settle answer
            Generator.define name value location
              (if directive = .set then .variable else .constant)) := by
      have bound : Keeps (fun value : Int ↦ (name, value))
          (binding generator.symbols [⟨.symbol name, place⟩, argument.node]) answer :=
        follows.reading fun _ ↦ rfl
      exact (Performs.ofTrial bound).bind fun value ↦ .ofWork _
    obtain ⟨slot, place, kind⟩ := argument
    cases kind with
    | symbol other => exact defines (.settle _)
    | _ => exact defines rfl
  · rename_i other
    have unbinding : isBinding (arguments.map Operand.node) = .ok false := by
      rcases arguments with _ | ⟨⟨slot, place, kind⟩, _ | ⟨second, _ | ⟨third, rest⟩⟩⟩
      case cons.cons.nil =>
        cases kind with
        | symbol name => exact absurd rfl (other _ _ _ _)
        | _ => rfl
      case cons.cons.cons => simp [isBinding]; rfl
      all_goals rfl
    unfold defineConstant
    rw [unbinding]
    exact performs_refuse ..

/-! ## Bytes -/

theorem does_align (directive : Directive) (location : Location) (arguments : List Operand) :
    Does (align directive location (arguments.map Operand.node))
      (Generator.align directive location arguments) :=
  Performs.get.bind fun generator ↦
    (Performs.ofTrial (Trial.follows_alignment directive generator.counter)).bind fun _ ↦
      .ite (fun _ ↦ .pure _ _) fun _ ↦ .ofWork _

theorem does_reserve (location : Location) (arguments : List Operand) :
    Does (reserve location (arguments.map Operand.node))
      (Generator.reserve location arguments) :=
  Performs.get.bind fun _ ↦ (Performs.ofTrial Trial.follows_space).bind fun _ ↦ .ofWork _

theorem does_placeValue (width : Nat) (argument : Operand) :
    Does (placeValue width argument.node) (Generator.placeValue width argument) := by
  refine Performs.get.bind fun generator ↦ ?_
  cases generator.pass with
  | first => exact .ofWork _
  | second =>
    exact (Performs.ofTrial (Trial.follows_valueBytes width argument)).bind fun _ ↦ .ofWork _

theorem does_placeString (directive : Directive) (argument : Operand) :
    Does (placeString directive argument.node) (Generator.placeString directive argument) :=
  (Performs.ofTrial (Trial.follows_stringBytes directive argument)).bind fun _ ↦ .ofWork _

/-! ## Statements -/

theorem does_each {effort : Trial.Node → Effort Unit} {work : Operand → Work Unit}
    (location : Location) (absent : DirectiveError) (arguments : List Operand)
    (does : ∀ argument, Does (effort argument.node) (work argument)) :
    Does (each location absent (arguments.map Operand.node) effort)
      (Generator.each location absent arguments work) := by
  unfold each Generator.each
  rw [List.isEmpty_map, forM_map]
  exact .ite (fun _ ↦ performs_refuse ..) fun _ ↦ .forM fun argument _ ↦ does argument

theorem does_once {effort : Effort Unit} {work : Work Unit} (does : Does effort work) :
    Does (once effort) (Generator.once work) := by
  refine Performs.get.bind fun generator ↦ ?_
  cases generator.pass with
  | first => exact does
  | second => exact .pure _ _

theorem does_nameSection (location : Location) (arguments : List Operand) :
    Does (nameSection location (arguments.map Operand.node))
      (Generator.directive .namedSection location arguments) := by
  rcases arguments with _ | ⟨⟨slot, place, kind⟩, rest⟩
  · exact performs_refuse ..
  · cases kind with
    | symbol name =>
      exact .ofWork (Generator.enterSection (String.ofList (name.toList.dropWhile (· = '.'))))
    | _ => exact performs_refuse ..

section

variable {program : Program}

/-- The directive is the same in either pass. -/
theorem does_directive {arguments : List Operand}
    (made : ∀ argument ∈ arguments, argument.slot < program.nodes) (name : Directive)
    (location : Location) :
    Does (directive program name location arguments)
      (Generator.directive name location arguments) := by
  unfold directive
  rw [nodes_eq made, ofTrial_ok_bind]
  cases name with
  | text | data | bss => exact .ofWork _
  | namedSection => exact does_nameSection location arguments
  | external => exact .pure _ _
  | global | globl => exact does_once (does_each location _ arguments does_declare)
  | equ | set => exact does_once (does_defineConstant _ location arguments)
  | align | balign | p2align => exact does_align _ location arguments
  | byte | hword | word | quad => exact does_each location _ arguments (does_placeValue _)
  | ascii | asciz | string => exact does_each location _ arguments (does_placeString _)
  | space | skip => exact does_reserve location arguments

theorem does_layOut {statement : Statement}
    (made : ∀ operand ∈ statement.kind.operands, operand.slot < program.nodes) :
    Does (layOut program statement) (Generator.layOut statement) := by
  obtain ⟨slot, location, kind⟩ := statement
  cases kind with
  | label name => exact Performs.get.bind fun _ ↦ .ofWork _
  | instruction => exact .ofWork _
  | directive name arguments => exact does_directive made name location

theorem does_encode {statement : Statement}
    (made : ∀ operand ∈ statement.kind.operands, operand.slot < program.nodes) :
    Does (encode program statement) (Generator.encode statement) := by
  obtain ⟨slot, location, kind⟩ := statement
  cases kind with
  | label name => exact .pure _ _
  | instruction mnemonic spelling operands =>
    have found : Trial.nodes program operands = .ok (operands.map Operand.node) := nodes_eq made
    unfold encode
    dsimp only
    rw [found, ofTrial_ok_bind]
    refine Performs.get.bind fun generator ↦ ?_
    refine (Performs.ofTrial (Trial.follows_select mnemonic _ operands)).bind fun instruction ↦ ?_
    rw [Trial.pack_word, ofTrial_ok_bind]
    exact .ofWork _
  | directive name arguments => exact does_directive made name location

/-! ## Programs -/

/-- The program and its parts have numbers of its nodes. -/
structure Numbered (program : Program) : Prop where
  root : program.root < program.nodes
  statements : ∀ statement ∈ program.statements, statement.slot < program.nodes
  operands : ∀ statement ∈ program.statements, ∀ operand ∈ statement.kind.operands,
    operand.slot < program.nodes

theorem visit_eq {slot : Nat} (made : slot < program.nodes) :
    Trial.visit program slot = .ok () := by
  rw [Trial.visit, if_pos made]
  rfl

theorem does_walk {step : Statement → Effort Unit} {work : Statement → Work Unit}
    (numbered : Numbered program)
    (does : ∀ statement ∈ program.statements, Does (step statement) (work statement)) :
    Does (walk program step) (program.statements.forM work) := by
  unfold walk
  rw [visit_eq numbered.root, ofTrial_ok_bind]
  refine .forM fun statement member ↦ ?_
  rw [visit_eq (numbered.statements statement member), ofTrial_ok_bind]
  exact does statement member

theorem does_firstPass (numbered : Numbered program) :
    Does (firstPass program) (Generator.firstPass program) := by
  refine (Performs.ofWork _).bind fun _ ↦ ?_
  refine (does_walk numbered fun statement member ↦
    does_layOut (numbered.operands statement member)).bind fun _ ↦ ?_
  exact Performs.get.bind fun laid ↦ (Performs.ofWork _).bind fun _ ↦ .ofWork _

theorem does_secondPass (numbered : Numbered program) :
    Does (secondPass program) (Generator.secondPass program) := by
  refine (Performs.ofWork _).bind fun _ ↦ ?_
  have walked : Does (walk program (encode program)) (program.statements.forM Generator.encode) :=
    does_walk numbered fun statement member ↦ does_encode (numbered.operands statement member)
  have tried : Does
      (orElse (walk program (encode program)) fun diagnostic ↦ do
        ofWork Generator.dropCode
        throw (.diagnostic diagnostic))
      (tryCatch (program.statements.forM Generator.encode) fun diagnostic ↦ do
        Generator.dropCode
        throw diagnostic) :=
    ⟨fun generator ↦ (walked.ends generator).orElse
      (fun _ printable ↦ (Performs.ofWork _).bind fun _ ↦ .throw _ printable)
      fun diagnostic _ ↦ ⟨diagnostic, _, rfl, rfl⟩⟩
  exact tried.bind fun _ ↦ Performs.get.bind fun done ↦ .ofWork _

theorem does_generate (numbered : Numbered program) :
    Does (generate program) (Generator.generate program) := by
  refine (Performs.modify _).bind fun _ ↦ (Performs.ofWork _).bind fun _ ↦ ?_
  exact (does_firstPass numbered).bind fun _ ↦ does_secondPass numbered

end

/-- The parts of a program that has been read have numbers of its nodes. -/
theorem numbered_of_parse {source file : String} {capacity : Int} {program : Program}
    (parsed : Program.parse source file capacity = .ok program) : Numbered program := by
  obtain ⟨root, stand⟩ := Program.standsOn_of_parse parsed
  exact ⟨root, fun statement member ↦ (stand statement member).slot,
    fun statement member operand there ↦ ((stand statement member).operands operand there).slot⟩

theorem read_of_parse {task : Pull.Task} {answer : Except Refusal Program} {last : PullState}
    (ended : task.parse = some (answer, last)) :
    Trial.read task.depth task.source task.file task.capacity =
      answer.mapError (·.toRaised task.source) := by
  unfold Pull.Task.parse at ended
  unfold Trial.read
  rw [ended]
  cases answer <;> rfl

/-- Reading by trial is reading, or stops at a limit that the source exceeds. -/
theorem read_cases (task : Pull.Task) :
    (∃ limit, task.Exceeds limit ∧
      Trial.read task.depth task.source task.file task.capacity = Trial.lapse (.limit limit)) ∨
    Trial.read task.depth task.source task.file task.capacity =
      Trial.settle (Program.parse task.source task.file task.capacity) := by
  obtain ⟨limit, exceeds, stopped⟩ | ⟨outcome, last, settles, ended⟩ := task.parse_cases
  · rw [read_of_parse stopped]
    exact .inl ⟨limit, exceeds, rfl⟩
  have answers := settles.answers
  rw [read_of_parse ended]
  revert answers
  generalize outcome.map _ = answer
  intro answers
  obtain (⟨token, error⟩ | ⟨capacity, location⟩ | reason) | program := answer
  · have printable : (AssemblyError.grammar error).IsPrintable := List.forall_mem_nil _
    rw [answers.1]
    refine .inr (congrArg Except.error (if_pos ?_).symm)
    rwa [Diagnostic.error_locate]
  · rw [answers.1]
    exact .inr (congrArg Except.error (if_pos (List.forall_mem_singleton.mpr answers.2)).symm)
  · obtain ⟨limit, rfl, exceeds⟩ := answers
    exact .inl ⟨limit, exceeds, rfl⟩
  · rw [show Program.parse task.source task.file task.capacity = .ok program from answers]
    exact .inr rfl

section

variable (depth : Nat) (generator : Generator) (source file : String)

/-- The task of reading a source under the limits of a generator. -/
def task : Pull.Task := ⟨source, file, generator.limits.nodes, depth⟩

theorem after_read_cases :
    (∃ limit, (task depth generator source file).Exceeds limit ∧
      after generator (read depth source file) = (.error (.lapse (.limit limit)), generator)) ∨
    Ends (fun result ↦ result) (after generator (read depth source file))
      (generator.after (Generator.read source file)) := by
  let goOn (program : Program) : Effort Unit := do
    ofWork (Generator.note .debug "armlet.assembler.assembler"
      ("parsed " ++ toString program.nodes ++ " nodes"))
    generate program
  have started : after generator (read depth source file) = after generator
      (ofTrial (Trial.read depth source file generator.limits.nodes) >>= goOn) := rfl
  rw [started]
  obtain ⟨limit, exceeds, lapsed⟩ | reads := read_cases (task depth generator source file)
  · rw [task] at lapsed
    rw [lapsed]
    exact .inl ⟨limit, exceeds, rfl⟩
  · rw [task] at reads
    rw [reads]
    refine .inr ?_
    have worked : generator.after (Generator.read source file) = generator.after
        (Generator.settle (Program.parse source file generator.limits.nodes) >>= fun program ↦ do
          Generator.note .debug "armlet.assembler.assembler"
            ("parsed " ++ toString program.nodes ++ " nodes")
          Generator.generate program) := rfl
    rw [worked]
    cases parsed : Program.parse source file generator.limits.nodes with
    | error diagnostic => exact .of (fun result : Unit ↦ result) (.error diagnostic) generator
    | ok program =>
      have does : Does (goOn program) (do
          Generator.note .debug "armlet.assembler.assembler"
            ("parsed " ++ toString program.nodes ++ " nodes")
          Generator.generate program) :=
        (Performs.ofWork _).bind fun _ ↦ does_generate (numbered_of_parse parsed)
      exact does.ends generator

/-- An assembly by trials is the assembly of the generator, or stops at a limit that the source
exceeds. -/
theorem after_assemble_cases :
    (∃ limit, (task depth generator source file).Exceeds limit ∧
      (after generator (assemble depth source file)).1 = .error (.lapse (.limit limit))) ∨
    Ends (fun result ↦ result) (after generator (assemble depth source file))
      (generator.after (Generator.assemble source file)) := by
  let noted : Generator := { generator with
    log := generator.log ++ [⟨.debug, "armlet.assembler.assembler", "assembling " ++ file⟩] }
  let handle (diagnostic : Diagnostic) : Effort Unit := do
    let diagnostic ← ofTrial (Trial.locate source diagnostic)
    throw (.diagnostic diagnostic)
  let finish : Effort (List UInt8) := do
    let generator ← get
    ofWork (Generator.note .info "armlet.assembler.assembler"
      (file ++ ": " ++ toString generator.code.size ++ " bytes, " ++
        toString generator.symbols.defined.length ++ " symbols"))
    return generator.code.toList
  have started : after generator (assemble depth source file) =
      after noted (orElse (read depth source file) handle >>= fun _ ↦ finish) := rfl
  rw [started]
  obtain ⟨limit, exceeds, lapsed⟩ | reads := after_read_cases depth noted source file
  · refine .inl ⟨limit, exceeds, ?_⟩
    rw [after_bind, after_orElse, lapsed]
  · refine .inr ?_
    have handled (diagnostic : Diagnostic) (printable : diagnostic.error.IsPrintable) :
        Does (handle diagnostic) (throw (diagnostic.locate source)) := by
      unfold handle
      rw [Trial.locate_eq, ofTrial_ok_bind]
      exact .throw _ (by rwa [Diagnostic.error_locate])
    have tried := reads.orElse handled fun diagnostic later ↦
      ⟨diagnostic.locate source, later, rfl, diagnostic.error_locate source⟩
    exact tried.bind fun _ ↦ Performs.get.bind fun _ ↦ (Performs.ofWork _).bind fun _ ↦ .pure _ _

end

end Effort

namespace Generator

/-- An assembly by trials answers what the generator answers, unless it lapses at a limit that the
source exceeds, or the message of the diagnostic cannot be written. -/
theorem answer_attempt_cases (depth : Nat) (generator : Generator) (source file : String) :
    (∃ limit, Pull.Task.Exceeds ⟨source, file, generator.limits.nodes, depth⟩ limit ∧
      (generator.attempt depth source file).1 = .error (.lapse (.limit limit))) ∨
    (generator.attempt depth source file).1 =
      (generator.after (assemble source file)).1.mapError .of := by
  obtain lapses | ends := Effort.after_assemble_cases depth generator source file
  · exact .inl lapses
  · refine .inr (ends.answer_eq.trans ?_)
    cases (generator.after (assemble source file)).1 <;> rfl

end Generator

end MiniA64
