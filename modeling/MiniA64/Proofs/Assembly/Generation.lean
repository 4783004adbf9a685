import MiniA64.Assembly.Generator
import MiniA64.Proofs.Assembly.Assembled

/-!
# What a generator does

The first pass of a generator is the layout of the program and the second one is its emission,
whatever the generator has kept from programs before. So a generator shows, after each source, what
an assembler that keeps nothing but its results shows.
-/

namespace MiniA64

namespace Generator

/-! ## Work -/

variable {α β : Type} (generator : Generator)

theorem after_bind (work : Work α) (next : α → Work β) :
    generator.after (work >>= next) =
      match generator.after work with
      | (.ok value, later) => later.after (next value)
      | (.error diagnostic, later) => (.error diagnostic, later) := by
  have bound : generator.after (work >>= next) =
      (ExceptT.bindCont next (generator.after work).1).run (generator.after work).2 := rfl
  rw [bound]
  obtain ⟨_ | _, later⟩ := generator.after work <;> rfl

theorem after_get (next : Generator → Work α) :
    generator.after (get >>= next) = generator.after (next generator) := rfl

/-- Work that goes on if a step does. -/
theorem after_settle_bind (step : Except Diagnostic α) (next : α → Work β) :
    generator.after (settle step >>= next) =
      match step with
      | .ok value => generator.after (next value)
      | .error diagnostic => (.error diagnostic, generator) := by
  cases step <;> rfl

/-! ## Layout -/

/-- A generator that has laid out a part of a program in its first pass. -/
abbrev laid (base : Generator) (layout : Layout) (name : String) : Generator :=
  { base with
    pass := .first
    symbols := layout.symbols
    counter := layout.size
    sectionName := name
    log := base.log ++ layout.log }

/-- A step of the layout and what it makes of the generator. -/
def afterStep (base : Generator) (layout : Layout) (name : String) :
    Except Diagnostic Layout → Except Diagnostic Unit × Generator
  | .ok next => (.ok (), base.laid next name)
  | .error diagnostic => (.error diagnostic, base.laid layout name)

section

variable {base : Generator} (layout : Layout) (name : String)

theorem after_advance (location : Location) (size : Nat) :
    (base.laid layout name).after (advance location size) =
      base.afterStep layout name (layout.advance base.limits location size) := by
  rw [advance, after_get, Layout.advance]
  by_cases full : base.limits.capacity < layout.size + size
  · rw [if_pos full, if_pos full]
    rfl
  · rw [if_neg full, if_neg full]
    rfl

theorem after_emit (location : Location) (size : Nat)
    (data : Unit → List UInt8) :
    (base.laid layout name).after (emit location size data) =
      base.afterStep layout name (layout.advance base.limits location size) := by
  rw [emit, after_get]
  exact after_advance layout name location size

theorem after_define (symbol : String) (value : Int) (location : Location)
    (binding : SymbolTable.Binding) :
    (base.laid layout name).after (define symbol value location binding) =
      base.afterStep layout name (layout.define base.limits symbol value location binding) := by
  rw [define, after_get, after_settle_bind, Layout.define]
  cases layout.symbols.define base.limits.symbols symbol value location binding with
  | error diagnostic => rfl
  | ok symbols =>
    exact congrArg (fun log ↦ (Except.ok (), { base.laid { layout with symbols } name with log }))
      (List.append_assoc ..)

theorem after_declare (argument : Operand) :
    (base.laid layout name).after (declare argument) =
      base.afterStep layout name (layout.declare base.limits argument) := by
  obtain ⟨source, location, kind⟩ := argument
  cases kind with
  | symbol symbol =>
    show (base.laid layout name).after (get >>= _) = _
    rw [after_get, after_settle_bind, Layout.declare]
    dsimp only
    cases layout.symbols.declare base.limits.symbols symbol location <;> rfl
  | _ => rfl

theorem after_defineConstant (directive : Directive) (location : Location)
    (arguments : List Operand) :
    (base.laid layout name).after (defineConstant directive location arguments) =
      base.afterStep layout name (layout.bind base.limits directive location arguments) := by
  unfold defineConstant
  split
  · rename_i symbol argument
    obtain ⟨source, place, kind⟩ := argument
    rw [after_get, after_settle_bind, Layout.bind]
    dsimp only
    cases kind with
    | immediate value => exact after_define ..
    | symbol other =>
      dsimp only
      cases layout.symbols.resolve other place with
      | error diagnostic => rfl
      | ok value => exact after_define ..
    | _ => rfl
  · rename_i other
    unfold Layout.bind
    split
    · exact absurd rfl (other _ _ _ _)
    · rfl

theorem after_align (directive : Directive) (location : Location)
    (arguments : List Operand) :
    (base.laid layout name).after (align directive location arguments) =
      base.afterStep layout name (layout.align base.limits directive location arguments) := by
  rw [align, after_get, after_settle_bind, Layout.align]
  dsimp only
  cases Padding.ofAlignment layout.symbols directive location arguments layout.size with
  | error diagnostic => rfl
  | ok padding =>
    dsimp only [bind, Except.bind]
    split
    · rfl
    · exact after_emit layout name ..

theorem after_reserve (location : Location)
    (arguments : List Operand) :
    (base.laid layout name).after (reserve location arguments) =
      base.afterStep layout name (layout.reserve base.limits location arguments) := by
  rw [reserve, after_get, after_settle_bind, Layout.reserve]
  dsimp only
  cases Padding.ofSpace layout.symbols location arguments with
  | error diagnostic => rfl
  | ok padding => exact after_emit layout name ..

theorem after_placeValue (width : Nat) (argument : Operand) :
    (base.laid layout name).after (placeValue width argument) =
      base.afterStep layout name (layout.advance base.limits argument.location width) := by
  rw [placeValue, after_get]
  exact after_emit layout name ..

theorem after_placeString (directive : Directive)
    (argument : Operand) :
    (base.laid layout name).after (placeString directive argument) =
      base.afterStep layout name (layout.placeString base.limits directive argument) := by
  rw [placeString, after_settle_bind, Layout.placeString]
  cases Data.ofString directive argument with
  | error diagnostic => rfl
  | ok data => exact after_emit layout name ..

end

/-! ## Emission -/

/-- A generator that has emitted a part of a program in its second pass. -/
abbrev emitted (base : Generator) (emission : Emission) (name : String) : Generator :=
  { base with
    pass := .second
    code := emission.code
    listing := emission.listing
    counter := emission.code.size
    sectionName := name }

/-- A step of the emission and what it makes of the generator. -/
def afterEmission (base : Generator) (emission : Emission) (name : String) :
    Except Diagnostic Emission → Except Diagnostic Unit × Generator
  | .ok next => (.ok (), base.emitted next name)
  | .error diagnostic => (.error diagnostic, base.emitted emission name)

section

variable {base : Generator} (emission : Emission) (name : String)

theorem after_emit_second (location : Location) {size : Nat}
    {data : Unit → List UInt8} (length : (data ()).length = size) :
    (base.emitted emission name).after (emit location size data) =
      base.afterEmission emission name
        (if emission.fits base.limits size then .ok (emission.append location (data ()))
          else Emission.overflow base.limits location) := by
  rw [emit, after_get]
  dsimp only
  by_cases room : emission.fits base.limits size = true
  · have below : ¬base.limits.capacity < emission.code.size + size :=
      Int.not_lt.mpr (of_decide_eq_true room)
    rw [if_neg below, if_pos room, ← length]
    have size : (emission.append location (data ())).code.size =
        emission.code.size + (data ()).length := emission.address_append location (data ())
    exact congrArg (fun counter ↦
        (Except.ok (), { base.emitted (emission.append location (data ())) name with counter }))
      size.symm
  · have full : base.limits.capacity < emission.code.size + size :=
      Int.not_le.mp fun below ↦ room (decide_eq_true below)
    rw [if_pos full, if_neg room]
    rfl

theorem after_align_second (directive : Directive) (location : Location)
    (arguments : List Operand) :
    (base.emitted emission name).after (align directive location arguments) =
      base.afterEmission emission name (do
        let padding ← Padding.ofAlignment base.symbols directive location arguments emission.address
        if padding.count = 0 then return emission
        else emission.emitPadding base.limits location padding) := by
  rw [align, after_get, after_settle_bind]
  dsimp only [Emission.address]
  cases Padding.ofAlignment base.symbols directive location arguments emission.code.size with
  | error diagnostic => rfl
  | ok padding =>
    dsimp only [bind, Except.bind]
    split
    · rfl
    · exact after_emit_second emission name location List.length_replicate

theorem after_reserve_second (location : Location) (arguments : List Operand) :
    (base.emitted emission name).after (reserve location arguments) =
      base.afterEmission emission name (do
        emission.emitPadding base.limits location
          (← Padding.ofSpace base.symbols location arguments)) := by
  rw [reserve, after_get, after_settle_bind]
  dsimp only
  cases Padding.ofSpace base.symbols location arguments with
  | error diagnostic => rfl
  | ok padding => exact after_emit_second emission name location List.length_replicate

theorem after_placeValue_second (width : Nat) (argument : Operand) :
    (base.emitted emission name).after (placeValue width argument) =
      base.afterEmission emission name (do
        emission.emit base.limits argument.location
          (← Data.ofValue base.symbols width argument)) := by
  rw [placeValue, after_get]
  dsimp only
  rw [after_settle_bind]
  cases Data.ofValue base.symbols width argument with
  | error diagnostic => rfl
  | ok data => exact after_emit_second emission name argument.location rfl

theorem after_placeString_second (directive : Directive) (argument : Operand) :
    (base.emitted emission name).after (placeString directive argument) =
      base.afterEmission emission name (do
        emission.emit base.limits argument.location (← Data.ofString directive argument)) := by
  rw [placeString, after_settle_bind]
  cases Data.ofString directive argument with
  | error diagnostic => rfl
  | ok data => exact after_emit_second emission name argument.location rfl

end

/-! ## Walks -/

/-- How the states of a walk and its failures are held by a generator. -/
structure Holding (σ ε : Type) where
  Holds : σ → Generator → Prop
  diagnostic : ε → Diagnostic
  Fails : ε → Generator → Prop

/-- Work does what a step does, on generators that hold the states of the step. -/
def Holding.Simulates {σ ε : Type} (holding : Holding σ ε) (work : Work Unit)
    (step : σ → Except ε σ) : Prop :=
  ∀ state generator, holding.Holds state generator →
    match step state with
    | .ok next => ∃ later, generator.after work = (.ok (), later) ∧ holding.Holds next later
    | .error failure => ∃ later,
      generator.after work = (.error (holding.diagnostic failure), later) ∧
        holding.Fails failure later

theorem Holding.simulates_forM {σ ε ι : Type} {holding : Holding σ ε} {work : ι → Work Unit}
    {step : σ → ι → Except ε σ} (each : ∀ item, holding.Simulates (work item) (step · item))
    (items : List ι) :
    holding.Simulates (items.forM work) (fun state ↦ items.foldlM step state) := by
  induction items with
  | nil => exact fun state generator holds ↦ ⟨generator, rfl, holds⟩
  | cons item rest ih =>
    intro state generator holds
    have head := each item state generator holds
    have walk : (item :: rest).forM work = work item >>= fun _ ↦ rest.forM work := rfl
    dsimp only at head ⊢
    rw [walk, after_bind, List.foldlM_cons]
    cases stepped : step state item with
    | error failure =>
      rw [stepped] at head
      obtain ⟨later, worked, fails⟩ := head
      rw [worked]
      exact ⟨later, rfl, fails⟩
    | ok next =>
      rw [stepped] at head
      obtain ⟨later, worked, holds⟩ := head
      rw [worked]
      exact ih next later holds

def laying (base : Generator) : Holding Layout LayoutFailure where
  Holds layout generator := ∃ name, generator = base.laid layout name
  diagnostic := LayoutFailure.diagnostic
  Fails failure generator := ∃ name, generator = base.laid failure.reached name

def emitting (base : Generator) : Holding Emission Diagnostic where
  Holds emission generator := ∃ name, generator = base.emitted emission name
  diagnostic := id
  Fails _ generator := ∃ emission name, generator = base.emitted emission name

/-! ## The first pass -/

section

variable {base : Generator}

theorem laying_attempt {work : Work Unit} {step : Layout → Except Diagnostic Layout}
    (steps : ∀ layout name, (base.laid layout name).after work =
      base.afterStep layout name (step layout)) :
    (laying base).Simulates work fun layout ↦ layout.attempt (step layout) := by
  rintro layout _ ⟨name, rfl⟩
  rw [steps layout name]
  dsimp only
  cases step layout with
  | error diagnostic => exact ⟨_, rfl, name, rfl⟩
  | ok next => exact ⟨_, rfl, name, rfl⟩

theorem laying_each {work : Operand → Work Unit}
    {step : Layout → Operand → Except Diagnostic Layout}
    (steps : ∀ argument layout name, (base.laid layout name).after (work argument) =
      base.afterStep layout name (step layout argument))
    (location : Location) (absent : DirectiveError) (arguments : List Operand) :
    (laying base).Simulates (each location absent arguments work)
      fun layout ↦ layout.each location absent arguments step := by
  unfold each Layout.each
  cases arguments with
  | nil =>
    have refuses : (laying base).Simulates (settle (Padding.refuse location absent))
      fun layout ↦ layout.attempt (Padding.refuse location absent) := laying_attempt fun _ _ ↦ rfl
    exact refuses
  | cons argument rest =>
    exact Holding.simulates_forM (fun argument ↦ laying_attempt (steps argument)) _

theorem laying_enterSection (name : String) :
    (laying base).Simulates (enterSection name) .ok := by
  rintro layout _ ⟨_, rfl⟩
  exact ⟨_, rfl, name, rfl⟩

/-- The first pass does what is done once. -/
theorem laying_once {work : Work Unit} {step : Layout → Except LayoutFailure Layout}
    (simulates : (laying base).Simulates work step) :
    (laying base).Simulates (once work) step := by
  rintro layout _ ⟨name, rfl⟩
  exact simulates layout _ ⟨name, rfl⟩

theorem laying_section (location : Location) (arguments : List Operand) :
    (laying base).Simulates (directive .namedSection location arguments)
      fun layout ↦ layout.directive base.limits .namedSection location arguments := by
  rintro layout _ ⟨name, rfl⟩
  obtain _ | ⟨⟨source, place, kind⟩, rest⟩ := arguments
  · exact ⟨_, rfl, name, rfl⟩
  · cases kind <;> exact ⟨_, rfl, _, rfl⟩

theorem laying_directive (name : Directive) (location : Location) (arguments : List Operand) :
    (laying base).Simulates (directive name location arguments)
      fun layout ↦ layout.directive base.limits name location arguments := by
  cases name with
  | text | data | bss => exact laying_enterSection _
  | namedSection => exact laying_section location arguments
  | external => exact fun layout generator holds ↦ ⟨generator, rfl, holds⟩
  | global | globl =>
    exact laying_once (laying_each (fun argument layout name ↦ after_declare layout name argument)
      location .noGlobals arguments)
  | equ | set =>
    exact laying_once (laying_attempt fun layout name ↦
      after_defineConstant layout name _ location arguments)
  | align | balign | p2align => exact laying_attempt fun layout name ↦ after_align layout name ..
  | byte | hword | word | quad =>
    exact laying_each (fun argument layout name ↦ after_placeValue layout name _ argument)
      location .noValues arguments
  | ascii | asciz | string =>
    exact laying_each (fun argument layout name ↦ after_placeString layout name _ argument)
      location .noStrings arguments
  | space | skip => exact laying_attempt fun layout name ↦ after_reserve layout name ..

theorem laying_statement (statement : Statement) :
    (laying base).Simulates (layOut statement) (Layout.statement base.limits · statement) := by
  unfold layOut Layout.statement
  cases statement.kind with
  | label symbol =>
    refine laying_attempt fun layout name ↦ ?_
    rw [after_get]
    exact after_define layout name symbol layout.size statement.location .label
  | instruction mnemonic spelling operands =>
    exact laying_attempt fun layout name ↦ after_advance layout name ..
  | directive name arguments => exact laying_directive name statement.location arguments

end

/-! ## The second pass -/

section

variable {base : Generator}

theorem emitting_step {work : Work Unit} {step : Emission → Except Diagnostic Emission}
    (steps : ∀ emission name, (base.emitted emission name).after work =
      base.afterEmission emission name (step emission)) :
    (emitting base).Simulates work step := by
  rintro emission _ ⟨name, rfl⟩
  rw [steps emission name]
  cases step emission with
  | error diagnostic => exact ⟨_, rfl, emission, name, rfl⟩
  | ok next => exact ⟨_, rfl, name, rfl⟩

theorem emitting_each {work : Operand → Work Unit}
    {data : Operand → Except Diagnostic (List UInt8)}
    (steps : ∀ argument emission name, (base.emitted emission name).after (work argument) =
      base.afterEmission emission name (do
        emission.emit base.limits argument.location (← data argument)))
    (location : Location) (absent : DirectiveError) (arguments : List Operand) :
    (emitting base).Simulates (each location absent arguments work)
      fun emission ↦ emission.each base.limits location absent arguments data := by
  unfold each Emission.each
  cases arguments with
  | nil =>
    have refuses : (emitting base).Simulates (settle (Padding.refuse location absent))
      fun _ ↦ Padding.refuse location absent := emitting_step fun _ _ ↦ rfl
    exact refuses
  | cons argument rest =>
    exact Holding.simulates_forM (fun argument ↦ emitting_step (steps argument)) _

theorem emitting_section (location : Location) (arguments : List Operand) :
    (emitting base).Simulates (directive .namedSection location arguments)
      fun emission ↦
        emission.directive base.limits base.symbols location .namedSection arguments := by
  rintro emission _ ⟨name, rfl⟩
  obtain _ | ⟨⟨source, place, kind⟩, rest⟩ := arguments
  · exact ⟨_, rfl, _, name, rfl⟩
  · cases kind with
    | symbol => exact ⟨_, rfl, _, rfl⟩
    | _ => exact ⟨_, rfl, _, name, rfl⟩

theorem emitting_directive (name : Directive) (location : Location) (arguments : List Operand) :
    (emitting base).Simulates (directive name location arguments)
      fun emission ↦ emission.directive base.limits base.symbols location name arguments := by
  cases name with
  | text | data | bss =>
    rintro emission _ ⟨name, rfl⟩
    exact ⟨_, rfl, _, rfl⟩
  | namedSection => exact emitting_section location arguments
  | external => exact fun emission generator holds ↦ ⟨generator, rfl, holds⟩
  | global | globl | equ | set =>
    rintro emission _ ⟨name, rfl⟩
    exact ⟨_, rfl, name, rfl⟩
  | align | balign | p2align =>
    exact emitting_step fun emission name ↦ after_align_second emission name ..
  | byte | hword | word | quad =>
    exact emitting_each (fun argument emission name ↦
      after_placeValue_second emission name _ argument) location .noValues arguments
  | ascii | asciz | string =>
    exact emitting_each (fun argument emission name ↦
      after_placeString_second emission name _ argument) location .noStrings arguments
  | space | skip => exact emitting_step fun emission name ↦ after_reserve_second emission name ..

theorem emitting_statement (statement : Statement) :
    (emitting base).Simulates (encode statement)
      (Emission.statement base.limits base.symbols · statement) := by
  unfold encode Emission.statement
  cases statement.kind with
  | label symbol => exact fun emission generator holds ↦ ⟨generator, rfl, holds⟩
  | instruction mnemonic spelling operands =>
    refine emitting_step fun emission name ↦ ?_
    rw [after_get, after_settle_bind]
    dsimp only [Emission.instruction, Emission.address]
    cases mnemonic.select ⟨base.symbols, emission.code.size, statement.location, spelling⟩
      operands with
    | error diagnostic => rfl
    | ok instruction =>
      have length := instruction.encode.length_toBytes
      dsimp only [bind, Except.bind]
      rw [after_emit_second emission name statement.location length, Emission.emit, length]
  | directive name arguments => exact emitting_directive name statement.location arguments

end

/-! ## Programs -/

theorem after_tryCatch (work : Work α) (handle : Diagnostic → Work α) :
    generator.after (tryCatch work handle) =
      match generator.after work with
      | (.ok value, later) => (.ok value, later)
      | (.error diagnostic, later) => later.after (handle diagnostic) := by
  unfold after
  simp only [tryCatch, tryCatchThe, MonadExceptOf.tryCatch, ExceptT.tryCatch, ExceptT.run,
    ExceptT.mk, StateT.run_bind]
  generalize StateT.run work generator = outcome
  obtain ⟨_ | _, later⟩ := outcome <;> rfl

theorem after_note (level : LogLevel) (source message : String) :
    ∃ later, generator.after (note level source message) = (.ok (), later) ∧
      later.view = generator.view.note level source message :=
  ⟨_, rfl, rfl⟩

/-- A generator reports the names that are not bound as its view does. -/
theorem after_noteUndefined :
    ∃ later, generator.after noteUndefined = (.ok (), later) ∧
      later.view = generator.view.noteUndefined := by
  have noted (names : List Symbol) (generator : Generator) :
      ∃ later, generator.after (names.forM fun symbol ↦
          note .warning "armlet.assembler.codegen"
            ("global symbol '" ++ symbol.name ++ "' is never defined")) = (.ok (), later) ∧
        later.view = names.foldl (fun assembler symbol ↦
          assembler.note .warning "armlet.assembler.codegen"
            ("global symbol '" ++ symbol.name ++ "' is never defined")) generator.view := by
    induction names generalizing generator with
    | nil => exact ⟨generator, rfl, rfl⟩
    | cons symbol rest ih => exact ih _
  exact noted _ generator

/-- The first pass over a program shows its layout. -/
theorem after_firstPass (program : Program) (blank : generator.symbols = .empty)
    (dropped : generator.view.emission = .empty) :
    match Layout.ofStatements generator.limits program.statements with
    | .error failure => ∃ later,
      generator.after (firstPass program) = (.error failure.diagnostic, later) ∧
        later.view = generator.view.withLayout generator.view.source failure.reached
    | .ok layout => ∃ later,
      generator.after (firstPass program) = (.ok (), later) ∧
        later.view = ((generator.view.withLayout generator.view.source layout).note .debug
          "armlet.assembler.codegen" ("pass 1 complete: " ++ toString layout.size ++ " bytes, " ++
            toString layout.symbols.entries.length ++ " symbols")).noteUndefined := by
  obtain ⟨started, started_eq⟩ : ∃ started, started = generator.laid .empty "text" := ⟨_, rfl⟩
  have starts : generator.after (firstPass program) = started.after (do
      program.statements.forM layOut
      let laid ← get
      note .debug "armlet.assembler.codegen"
        ("pass 1 complete: " ++ toString laid.counter ++ " bytes, " ++
          toString laid.symbols.entries.length ++ " symbols")
      noteUndefined) := by
    rw [started_eq, laid, Layout.empty, List.append_nil, ← blank]
    rfl
  have walked := Holding.simulates_forM laying_statement program.statements .empty started
    ⟨"text", started_eq⟩
  rw [starts, after_bind]
  have shows (layout : Layout) (name : String) : (generator.laid layout name).view =
      generator.view.withLayout generator.view.source layout := by
    rw [Assembler.withLayout, ← dropped]
    rfl
  dsimp only at walked
  rw [← Layout.ofStatements] at walked
  cases laidOut : Layout.ofStatements generator.limits program.statements with
  | error failure =>
    rw [laidOut] at walked
    obtain ⟨_, worked, name, rfl⟩ := walked
    rw [worked]
    exact ⟨_, rfl, shows failure.reached name⟩
  | ok layout =>
    rw [laidOut] at walked
    obtain ⟨_, worked, name, rfl⟩ := walked
    rw [worked]
    dsimp only
    rw [after_get, after_bind]
    obtain ⟨noted, ran, shown⟩ := after_note (generator.laid layout name) .debug
      "armlet.assembler.codegen" ("pass 1 complete: " ++ toString layout.size ++ " bytes, " ++
        toString layout.symbols.entries.length ++ " symbols")
    obtain ⟨later, reported, result⟩ := noted.after_noteUndefined
    rw [ran]
    exact ⟨later, reported, by rw [result, shown, shows]⟩

/-- The second pass over a program shows its emission, or no code if it fails. -/
theorem after_secondPass (program : Program) (dropped : generator.view.emission = .empty) :
    match Emission.ofStatements generator.limits generator.symbols program.statements with
    | .error diagnostic => ∃ later,
      generator.after (secondPass program) = (.error diagnostic, later) ∧
        later.view = generator.view
    | .ok emission => ∃ later,
      generator.after (secondPass program) = (.ok (), later) ∧
        later.view = { generator.view.note .debug "armlet.assembler.codegen"
          ("pass 2 complete: emitted " ++ toString emission.code.size ++ " bytes") with
          emission } := by
  obtain ⟨started, started_eq⟩ : ∃ started, started = generator.emitted .empty "text" := ⟨_, rfl⟩
  have starts : generator.after (secondPass program) = started.after (do
      tryCatch (program.statements.forM encode) fun diagnostic ↦ do
        dropCode
        throw diagnostic
      let done ← get
      note .debug "armlet.assembler.codegen"
        ("pass 2 complete: emitted " ++ toString done.code.size ++ " bytes")) := by
    have code : generator.code = #[] := congrArg Emission.code dropped
    have listing : generator.listing = #[] := congrArg Emission.listing dropped
    have begins : { generator with pass := .second, counter := 0, sectionName := "text" } =
        started := by
      rw [started_eq, code, listing]
      rfl
    rw [← begins]
    rfl
  have walked := Holding.simulates_forM emitting_statement program.statements .empty started
    ⟨"text", started_eq⟩
  rw [starts, after_bind, after_tryCatch]
  dsimp only at walked
  rw [← Emission.ofStatements] at walked
  cases emits : Emission.ofStatements generator.limits generator.symbols program.statements with
  | error diagnostic =>
    rw [emits] at walked
    obtain ⟨_, worked, reached, name, rfl⟩ := walked
    rw [worked]
    exact ⟨_, rfl, congrArg (fun emission ↦ { generator.view with emission }) dropped.symm⟩
  | ok emission =>
    rw [emits] at walked
    obtain ⟨_, worked, name, rfl⟩ := walked
    rw [worked]
    exact ⟨_, rfl, rfl⟩

/-- A generator makes the code of a program as an assembler does that has kept what it shows. -/
theorem view_generate (program : Program) :
    ((generator.after (generate program)).1, (generator.after (generate program)).2.view) =
      generator.view.generate program := by
  obtain ⟨blank, blank_eq⟩ : ∃ blank, blank = { generator with
    symbols := .empty, program? := some program, code := #[], listing := #[] } := ⟨_, rfl⟩
  have starts : generator.after (generate program) =
      blank.after (do firstPass program; secondPass program) := by
    rw [blank_eq]
    rfl
  have kept : blank.limits = generator.limits ∧ blank.symbols = .empty ∧
      blank.view.emission = .empty := by
    rw [blank_eq]
    exact ⟨rfl, rfl, rfl⟩
  have laying (layout : Layout) : blank.view.withLayout blank.view.source layout =
      generator.view.withLayout program.source layout := by
    rw [blank_eq]
    rfl
  have first := blank.after_firstPass program kept.2.1 kept.2.2
  rw [kept.1] at first
  rw [starts, after_bind]
  unfold Assembler.generate
  cases laidOut : Layout.ofStatements generator.limits program.statements with
  | error failure =>
    rw [laidOut] at first
    obtain ⟨later, ran, shown⟩ := first
    have refused : Layout.ofStatements generator.view.limits program.statements =
      .error failure := laidOut
    rw [ran, refused]
    exact congrArg (Prod.mk _) (shown.trans (laying failure.reached))
  | ok layout =>
    rw [laidOut] at first
    obtain ⟨middle, ran, shown⟩ := first
    have accepted : Layout.ofStatements generator.view.limits program.statements =
      .ok layout := laidOut
    rw [ran, accepted]
    rw [laying] at shown
    have same : middle.limits = generator.limits ∧ middle.symbols = layout.symbols ∧
        middle.view.emission = .empty := by
      obtain ⟨log, noted⟩ := Assembler.noteUndefined_eq
        ((generator.view.withLayout program.source layout).note .debug "armlet.assembler.codegen"
          ("pass 1 complete: " ++ toString layout.size ++ " bytes, " ++
            toString layout.symbols.entries.length ++ " symbols"))
      have whole := shown.trans noted
      exact ⟨congrArg Assembler.limits whole, congrArg Assembler.symbols whole,
        congrArg Assembler.emission whole⟩
    dsimp only
    rw [← shown]
    have second := middle.after_secondPass program same.2.2
    rw [same.2.1] at second
    cases emits : Emission.ofStatements middle.limits layout.symbols program.statements with
    | error diagnostic =>
      rw [emits] at second
      obtain ⟨later, finished, result⟩ := second
      have refused : Emission.ofStatements middle.view.limits layout.symbols program.statements =
        .error diagnostic := emits
      rw [finished, refused]
      exact congrArg (Prod.mk _) result
    | ok emission =>
      rw [emits] at second
      obtain ⟨later, finished, result⟩ := second
      have accepted : Emission.ofStatements middle.view.limits layout.symbols program.statements =
        .ok emission := emits
      rw [finished, accepted]
      exact congrArg (Prod.mk _) result

theorem view_read (source file : String) :
    ((generator.after (read source file)).1, (generator.after (read source file)).2.view) =
      generator.view.parseAndGenerate source file := by
  rw [read, after_get, after_settle_bind]
  unfold Assembler.parseAndGenerate
  have limits : generator.view.limits = generator.limits := rfl
  rw [limits]
  cases Program.parse source file generator.limits.nodes with
  | error diagnostic => rfl
  | ok program =>
    dsimp only
    obtain ⟨noted, ran, shown⟩ := generator.after_note .debug "armlet.assembler.assembler"
      ("parsed " ++ toString program.nodes ++ " nodes")
    rw [after_bind, ran, ← shown]
    exact view_generate noted program

/-- A generator assembles a source as an assembler does that has kept what it shows. -/
theorem view_assemble (source file : String) :
    ((generator.after (assemble source file)).1, (generator.after (assemble source file)).2.view) =
      generator.view.assemble source file := by
  rw [assemble, after_bind]
  obtain ⟨started, ran, shown⟩ := generator.after_note .debug "armlet.assembler.assembler"
    ("assembling " ++ file)
  rw [ran]
  dsimp only
  rw [after_bind, after_tryCatch]
  have read := started.view_read source file
  unfold Assembler.assemble
  rw [← shown]
  dsimp only
  rw [← read]
  obtain ⟨diagnostic | _, later⟩ := started.after (Generator.read source file) <;> rfl

end Generator

end MiniA64
