import MiniA64.Proofs.Assembly.Agreement

/-!
# Assembled programs

A program that has been assembled has been laid out and emitted, and the symbols and the code of
the assembler are those of the layout and of the emission. For a statement somewhere in it, both
walks split there: what is emitted for the statements before it is the beginning of the code, and
its length is the address of the statement.
-/

namespace MiniA64

theorem foldlM_append_cons_ok {α β ε : Type} {step : β → α → Except ε β} {before after : List α}
    {statement : α} {start stop : β}
    (h : (before ++ statement :: after).foldlM step start = .ok stop) :
    ∃ reached next, before.foldlM step start = .ok reached ∧ step reached statement = .ok next ∧
      after.foldlM step next = .ok stop := by
  rw [List.foldlM_append] at h
  obtain ⟨reached, hreached, h⟩ := Selection.bind_eq_ok.mp h
  rw [List.foldlM_cons] at h
  obtain ⟨next, hnext, h⟩ := Selection.bind_eq_ok.mp h
  exact ⟨reached, next, hreached, hnext, h⟩

/-- Where an emission of some statements splits at one of them. -/
structure Emission.SplitAt (limits : Limits) (symbols : SymbolTable) (before : List Statement)
    (statement : Statement) (emission placed next : Emission) : Prop where
  before : ofStatements limits symbols before = .ok placed
  statement : placed.statement limits symbols statement = .ok next
  code : next.code.toList <+: emission.code.toList

theorem Emission.exists_splitAt {limits : Limits} {symbols : SymbolTable}
    {before after : List Statement} {statement : Statement} {emission : Emission}
    (h : ofStatements limits symbols (before ++ statement :: after) = .ok emission) :
    ∃ placed next, SplitAt limits symbols before statement emission placed next := by
  obtain ⟨placed, next, hplaced, hnext, rest⟩ := foldlM_append_cons_ok h
  exact ⟨placed, next, hplaced, hnext, prefix_walk rest⟩

/-- The value of a label is what the layout counts before it. A label is never bound anew. -/
theorem Layout.value?_label {limits : Limits} {before after : List Statement} {label : Statement}
    {name : String} {layout : Layout}
    (laid : ofStatements limits (before ++ label :: after) = .ok layout)
    (labels : label.kind = .label name) :
    ∃ reached, ofStatements limits before = .ok reached ∧
      layout.symbols.value? name = some (reached.size : Int) := by
  obtain ⟨reached, next, hreached, hnext, rest⟩ := foldlM_append_cons_ok laid
  rw [statement, labels] at hnext
  obtain ⟨-, defined⟩ := define_ok (attempt_eq_ok.mp hnext)
  have bound : next.symbols.bound? name = some ((reached.size : Int), false) := by
    rw [(SymbolTable.define_ok defined).2, if_pos rfl]
    rfl
  refine ⟨reached, hreached, ?_⟩
  rw [SymbolTable.value?_eq_bound?, keeps_walk rest bound nofun, Option.map_some]

/-- Where sizes are kept, the value of a label is the number of bytes that are emitted before it. -/
theorem value?_label_of_kept {limits : Limits} {before after : List Statement}
    {label : Statement} {name : String} {layout : Layout} {placed : Emission}
    (kept : SizesKept limits layout.symbols .empty (before ++ label :: after))
    (laid : Layout.ofStatements limits (before ++ label :: after) = .ok layout)
    (labels : label.kind = .label name)
    (emitted : Emission.ofStatements limits layout.symbols before = .ok placed) :
    layout.symbols.value? name = some (placed.address : Int) := by
  obtain ⟨reached, hreached, value⟩ := Layout.value?_label laid labels
  rw [value, address_walk kept.of_append hreached emitted rfl]

theorem value?_label {limits : Limits} {before after : List Statement} {label : Statement}
    {name : String} {layout : Layout} {placed : Emission}
    (once : SetsOnce (before ++ label :: after))
    (laid : Layout.ofStatements limits (before ++ label :: after) = .ok layout)
    (labels : label.kind = .label name)
    (emitted : Emission.ofStatements limits layout.symbols before = .ok placed) :
    layout.symbols.value? name = some (placed.address : Int) :=
  value?_label_of_kept (sizesKept_of_setsOnce once laid) laid labels emitted

namespace Assembler

variable {assembler finished : Assembler}

/-- What an assembler is about, whatever it has noted. -/
theorem noteUndefined_eq (assembler : Assembler) :
    ∃ log, assembler.noteUndefined = { assembler with log } := by
  have noted (names : List Symbol) (assembler : Assembler) :
      ∃ log, names.foldl (fun assembler symbol ↦
        assembler.note .warning "armlet.assembler.codegen"
          ("global symbol '" ++ symbol.name ++ "' is never defined")) assembler =
        { assembler with log } := by
    induction names generalizing assembler with
    | nil => exact ⟨_, rfl⟩
    | cons symbol rest ih => exact ih _
  exact noted _ assembler

/-- What a program and an assembler have in common after the program has been assembled. -/
structure Assembled (limits : Limits) (statements : List Statement) (finished : Assembler) :
    Prop where
  laidOut : ∃ layout, Layout.ofStatements limits statements = .ok layout ∧
    layout.symbols = finished.symbols
  emitted : Emission.ofStatements limits finished.symbols statements = .ok finished.emission

theorem generate_ok {program : Program} (h : assembler.generate program = (.ok (), finished)) :
    Assembled assembler.limits program.statements finished := by
  unfold generate at h
  split at h
  · cases h
  rename_i layout laidOut
  obtain ⟨log, noted⟩ := noteUndefined_eq ((assembler.withLayout program.source layout).note
    .debug "armlet.assembler.codegen"
      ("pass 1 complete: " ++ toString layout.size ++ " bytes, " ++
        toString layout.symbols.entries.length ++ " symbols"))
  simp only [noted] at h
  split at h
  · cases h
  · rename_i emission emitted
    cases h
    exact ⟨⟨layout, laidOut, rfl⟩, emitted⟩

theorem assemble_ok {source file : String} {code : List UInt8}
    (h : assembler.assemble source file = (.ok code, finished)) :
    ∃ program, Program.parse source file assembler.limits.nodes = .ok program ∧
      Assembled assembler.limits program.statements finished ∧ finished.code = code := by
  unfold assemble at h
  simp only at h
  split at h
  · cases h
  · rename_i generated hgenerated
    cases h
    unfold parseAndGenerate at hgenerated
    split at hgenerated
    · cases hgenerated
    · rename_i program parsed
      have assembled := generate_ok hgenerated
      exact ⟨program, parsed, ⟨assembled.laidOut, assembled.emitted⟩, rfl⟩

theorem generate_of_ok {program : Program} {layout : Layout} {emission : Emission}
    (laidOut : Layout.ofStatements assembler.limits program.statements = .ok layout)
    (emitted : Emission.ofStatements assembler.limits layout.symbols program.statements =
      .ok emission) :
    ∃ finished, assembler.generate program = (.ok (), finished) ∧
      finished.emission = emission := by
  unfold generate
  simp only [laidOut]
  obtain ⟨log, noted⟩ := noteUndefined_eq ((assembler.withLayout program.source layout).note
    .debug "armlet.assembler.codegen"
      ("pass 1 complete: " ++ toString layout.size ++ " bytes, " ++
        toString layout.symbols.entries.length ++ " symbols"))
  simp only [noted, show ((assembler.withLayout program.source layout).note _ _ _).limits =
    assembler.limits from rfl, emitted]
  exact ⟨_, rfl, rfl⟩

theorem assemble_of_error {source file : String} {diagnostic : Diagnostic}
    (refused : Program.parse source file assembler.limits.nodes = .error diagnostic) :
    (assembler.assemble source file).1 = .error (diagnostic.locate source) := by
  simp only [assemble, parseAndGenerate, show (assembler.note _ _ _).limits = assembler.limits
    from rfl, refused]

/-- A program that is read, laid out and emitted is assembled to the code of the emission. -/
theorem assemble_of_ok {source file : String} {program : Program} {layout : Layout}
    {emission : Emission}
    (parsed : Program.parse source file assembler.limits.nodes = .ok program)
    (laidOut : Layout.ofStatements assembler.limits program.statements = .ok layout)
    (emitted : Emission.ofStatements assembler.limits layout.symbols program.statements =
      .ok emission) :
    (assembler.assemble source file).1 = .ok emission.code.toList := by
  let started := (assembler.note .debug "armlet.assembler.assembler" ("assembling " ++ file)).note
    .debug "armlet.assembler.assembler" ("parsed " ++ toString program.nodes ++ " nodes")
  obtain ⟨finished, generated, code⟩ := @generate_of_ok started _ _ _ laidOut emitted
  have ran : (assembler.note .debug "armlet.assembler.assembler"
      ("assembling " ++ file)).parseAndGenerate source file = (.ok (), finished) := by
    unfold parseAndGenerate
    rw [show (assembler.note _ _ _).limits = assembler.limits from rfl, parsed]
    exact generated
  rw [← code, assemble]
  simp only [ran]
  rfl

end Assembler

end MiniA64
