import MiniA64.Proofs.Assembly.Actions
import MiniA64.Proofs.Assembly.Efforts
import MiniA64.Proofs.Assembly.Metering
import MiniA64.Proofs.Assembly.Sessions

/-!
# Limits

The capacity of the code, that of the symbol table and that of the pool of nodes have one part in
assembly: a program that is larger than one of them is refused. A program that is accepted under
some limits walks over the same actions under all others. It ends up in the same place if there is
room, and at the first action without room else.
-/

namespace MiniA64

/-! ## Symbol tables -/

namespace SymbolTable

/-- The steps that make an entry need room for it, and the others are taken under all limits. -/
structure Takes (table table' : SymbolTable) (step : Int → Except Diagnostic SymbolTable) :
    Prop where
  grows : table.entries.length ≤ table'.entries.length
  room : ∀ limit : Int, (table.entries.length < table'.entries.length →
    table'.entries.length ≤ limit) → step limit = .ok table'
  lack : ∀ limit : Int, table.entries.length < table'.entries.length →
    limit < table'.entries.length →
    ∃ location, step limit = .error ((AssemblyError.symbolTableFull limit).locatedAt location)

variable {table table' : SymbolTable} {limit : Int}

theorem takes_add {symbol : Symbol} (h : table.add limit symbol = .ok table') :
    table.Takes table' (table.add · symbol) := by
  rw [add] at h
  split at h
  · cases h
  cases h
  have longer : (table.entries ++ [symbol]).length = table.entries.length + 1 :=
    List.length_append
  refine ⟨by simp only [longer]; omega, fun other room ↦ ?_, fun other _ lack ↦ ?_⟩
  · simp only [longer] at room
    exact if_neg (by omega)
  · simp only [longer] at lack
    exact ⟨symbol.location, if_pos (by omega)⟩

theorem takes_replace {symbol : Symbol} :
    table.Takes (table.replace symbol) fun _ ↦ .ok (table.replace symbol) := by
  have same : (table.replace symbol).entries.length = table.entries.length := List.length_map _
  refine ⟨by omega, fun other _ ↦ rfl, fun other grown ↦ ?_⟩
  omega

theorem takes_declare {name : String} {location : Location}
    (h : table.declare limit name location = .ok table') :
    table.Takes table' (table.declare · name location) := by
  unfold declare at h ⊢
  split at h
  · cases h
    exact takes_replace
  · exact takes_add h

theorem takes_define {name : String} {value : Int} {location : Location} {binding : Binding}
    (h : table.define limit name value location binding = .ok table') :
    table.Takes table' (table.define · name value location binding) := by
  unfold define at h ⊢
  split at h
  · split at h
    · rename_i mayReplace
      cases h
      simp only [mayReplace, if_true]
      exact takes_replace
    · cases h
  · exact takes_add h

end SymbolTable

/-! ## Layouts -/

namespace Layout

/-- Room for bytes is asked for, and there is not enough for a layout. -/
def Overflows (other : Limits) (places : Bool) (layout' : Layout) : Prop :=
  places = true ∧ other.capacity < layout'.size

/-- An entry is made, and there is not enough room for those of a layout. -/
def Overfills (other : Limits) (layout layout' : Layout) : Prop :=
  layout.symbols.entries.length < layout'.symbols.entries.length ∧
    other.symbols < layout'.symbols.entries.length

/-- The diagnostic of a limit that is exceeded. -/
def Refuses (other : Limits) (places : Bool) (layout layout' : Layout) (diagnostic : Diagnostic) :
    Prop :=
  layout'.Overflows other places ∧
      diagnostic.error = .codeBufferOverflow other.capacity ∨
    layout.Overfills other layout' ∧ diagnostic.error = .symbolTableFull other.symbols

/-- A walk comes to a layout under all limits that have room for it, and is refused else. -/
structure Reaches (places : Bool) (layout layout' : Layout) (walk : Limits → Walk Layout) :
    Prop where
  size : layout.size ≤ layout'.size
  idle : places = false → layout'.size = layout.size
  entries : layout.symbols.entries.length ≤ layout'.symbols.entries.length
  room : ∀ other, ¬layout'.Overflows other places → ¬layout.Overfills other layout' →
    walk other = .ok layout'
  lack : ∀ other, layout'.Overflows other places ∨ layout.Overfills other layout' →
    ∃ failure, walk other = .error failure ∧
      layout.Refuses other places layout' failure.diagnostic

variable {limits other : Limits} {layout layout' : Layout} {actions : List Action}

theorem Reaches.refl (layout : Layout) : Reaches false layout layout fun _ ↦ .ok layout where
  size := Nat.le_refl _
  idle _ := rfl
  entries := Nat.le_refl _
  room _ _ _ := rfl
  lack other exceeded := by
    obtain ⟨idle, -⟩ | ⟨more, -⟩ := exceeded
    · cases idle
    · exact absurd more (Nat.lt_irrefl _)

theorem Reaches.trans {places again : Bool} {between : Layout} {first : Limits → Walk Layout}
    {second : Limits → Layout → Walk Layout} (begun : Reaches places layout between first)
    (ended : Reaches again between layout' (second · between)) :
    Reaches (places || again) layout layout' fun other ↦ first other >>= second other := by
  have sizes := ended.size
  have entries := ended.entries
  have before := begun.entries
  refine ⟨Nat.le_trans begun.size sizes, fun idle ↦ ?_, Nat.le_trans before entries,
    fun other code table ↦ ?_, fun other exceeded ↦ ?_⟩
  · rw [Bool.or_eq_false_iff] at idle
    rw [ended.idle idle.2, begun.idle idle.1]
  · have codeFirst : ¬between.Overflows other places := fun ⟨placed, full⟩ ↦
      code ⟨by rw [placed, Bool.true_or], by omega⟩
    have tableFirst : ¬layout.Overfills other between := fun ⟨grown, full⟩ ↦
      table ⟨by omega, by omega⟩
    have codeNext : ¬layout'.Overflows other again := fun ⟨placed, full⟩ ↦
      code ⟨by rw [placed, Bool.or_true], full⟩
    have tableNext : ¬between.Overfills other layout' := fun ⟨grown, full⟩ ↦
      table ⟨by omega, full⟩
    rw [begun.room other codeFirst tableFirst]
    exact ended.room other codeNext tableNext
  · by_cases early : between.Overflows other places ∨ layout.Overfills other between
    · obtain ⟨failure, failed, refused⟩ := begun.lack other early
      refine ⟨failure, by rw [failed]; rfl, refused.imp (And.imp_left ?_) (And.imp_left ?_)⟩
      · exact fun ⟨placed, full⟩ ↦ ⟨by rw [placed, Bool.true_or], by omega⟩
      · exact fun ⟨grown, full⟩ ↦ ⟨by omega, by omega⟩
    · rw [not_or] at early
      have late : layout'.Overflows other again ∨ between.Overfills other layout' := by
        refine exceeded.imp (fun ⟨placed, full⟩ ↦ ?_) (fun ⟨grown, full⟩ ↦ ?_)
        · cases again with
          | true => exact ⟨rfl, full⟩
          | false =>
            -- The second walk takes no room, so the first one has overflown already.
            rw [Bool.or_false] at placed
            exact absurd ⟨placed, ended.idle rfl ▸ full⟩ early.1
        · refine ⟨Nat.lt_of_le_of_ne entries fun same ↦ early.2 ⟨?_, ?_⟩, full⟩ <;> omega
      obtain ⟨failure, failed, refused⟩ := ended.lack other late
      refine ⟨failure, ?_, refused.imp (And.imp_left ?_) (And.imp_left ?_)⟩
      · rw [begun.room other early.1 early.2]
        exact failed
      · exact fun ⟨placed, full⟩ ↦ ⟨by rw [placed, Bool.or_true], full⟩
      · exact fun ⟨grown, full⟩ ↦ ⟨by omega, full⟩

/-- A step of the symbols alone. -/
theorem Reaches.of_takes {symbols : SymbolTable} {step : Int → Except Diagnostic SymbolTable}
    (taken : SymbolTable → Layout) (takes : layout.symbols.Takes symbols step)
    (size : (taken symbols).size = layout.size) (same : (taken symbols).symbols = symbols) :
    Reaches false layout (taken symbols) fun other ↦
      layout.attempt (step other.symbols >>= fun symbols ↦ .ok (taken symbols)) where
  size := Nat.le_of_eq size.symm
  idle _ := size
  entries := by
    rw [same]
    exact takes.grows
  room other _ table := by
    rw [Overfills, same] at table
    rw [takes.room other.symbols fun grown ↦ Int.not_lt.mp fun full ↦ table ⟨grown, full⟩]
    rfl
  lack other exceeded := by
    obtain ⟨idle, -⟩ | ⟨grown, full⟩ := exceeded
    · cases idle
    · have overfills : layout.Overfills other (taken symbols) := ⟨grown, full⟩
      rw [same] at grown full
      obtain ⟨location, refused⟩ := takes.lack other.symbols grown full
      rw [refused]
      exact ⟨_, rfl, .inr ⟨overfills, rfl⟩⟩

theorem reaches_place {location : Location} {data : List UInt8} :
    Reaches true layout { layout with size := layout.size + data.length } fun other ↦
      layout.attempt (layout.advance other location data.length) where
  size := Nat.le_add_right _ _
  idle placed := by cases placed
  entries := Nat.le_refl _
  room other code _ := congrArg layout.attempt (if_neg fun full ↦ code ⟨rfl, by simpa using full⟩)
  lack other exceeded := by
    obtain ⟨placed, full⟩ | ⟨grown, -⟩ := exceeded
    · refine ⟨_, congrArg layout.attempt (if_pos ?_), .inl ⟨⟨placed, full⟩, rfl⟩⟩
      simpa using full
    · exact absurd grown (Nat.lt_irrefl _)

theorem reaches_action {action : Action} (h : action.layOut limits layout = .ok layout') :
    Reaches action.isPlace layout layout' fun other ↦
      layout.attempt (action.layOut other layout) := by
  cases action with
  | place location data =>
    cases advance_ok h
    exact reaches_place
  | bind name value location binding =>
    obtain ⟨symbols, defined, done⟩ := Selection.bind_eq_ok.mp h
    cases Selection.pure_eq_ok.mp done
    exact .of_takes (fun symbols ↦ Layout.note { layout with symbols } name value)
      (SymbolTable.takes_define defined) rfl rfl
  | declare name location =>
    obtain ⟨symbols, declared, done⟩ := Selection.bind_eq_ok.mp h
    cases Selection.pure_eq_ok.mp done
    exact .of_takes (fun symbols ↦ { layout with symbols })
      (SymbolTable.takes_declare declared) rfl rfl

/-- A walk that has come to a layout comes to it wherever there is room. -/
theorem reaches_walk (h : layout.walk limits actions = .ok layout') :
    Reaches (actions.any Action.isPlace) layout layout' (layout.walk · actions) := by
  induction actions generalizing layout with
  | nil =>
    cases h
    exact .refl _
  | cons action rest ih =>
    rw [walk, List.foldlM_cons] at h
    obtain ⟨next, first, h⟩ := Selection.bind_eq_ok.mp h
    exact (reaches_action (attempt_eq_ok.mp first)).trans (ih h)

theorem Reaches.unique {places : Bool} {walk : Limits → Walk Layout} {reached : Layout}
    (reaches : Reaches places layout layout' walk) (h : walk other = .ok reached) :
    reached = layout' := by
  by_cases exceeded : layout'.Overflows other places ∨ layout.Overfills other layout'
  · obtain ⟨failure, failed, -⟩ := reaches.lack other exceeded
    cases failed.symm.trans h
  · rw [not_or] at exceeded
    exact Except.ok.inj (h.symm.trans (reaches.room other exceeded.1 exceeded.2))

end Layout

/-! ## Emissions -/

namespace Emission

variable {limits other : Limits} {emission emission' : Emission} {actions : List Action}

/-- What an action leaves of an emission, if there is room for it. -/
def perform (emission : Emission) : Action → Emission
  | .place location data => emission.append location data
  | .bind _ _ _ _ => emission
  | .declare _ _ => emission

theorem emit_action_ok {action : Action} (h : action.emit limits emission = .ok emission') :
    emission' = emission.perform action := by
  cases action with
  | place location data => exact emit_ok h
  | bind | declare => exact (Except.ok.inj h).symm

theorem walk_ok (h : emission.walk limits actions = .ok emission') :
    emission' = actions.foldl perform emission := by
  induction actions generalizing emission with
  | nil => exact (Except.ok.inj h).symm
  | cons action rest ih =>
    rw [walk, List.foldlM_cons] at h
    obtain ⟨next, first, h⟩ := Selection.bind_eq_ok.mp h
    rw [List.foldl_cons, ← emit_action_ok first]
    exact ih h

theorem address_le_perform (actions : List Action) (emission : Emission) :
    emission.address ≤ (actions.foldl perform emission).address := by
  induction actions generalizing emission with
  | nil => exact Nat.le_refl _
  | cons action rest ih =>
    refine Nat.le_trans ?_ (ih (emission.perform action))
    cases action with
    | place location data =>
      rw [perform, address_append]
      exact Nat.le_add_right _ _
    | bind | declare => exact Nat.le_refl _

theorem size_listing_perform (actions : List Action) (emission : Emission) :
    (actions.foldl perform emission).listing.size =
      emission.listing.size + actions.countP Action.isPlace := by
  induction actions generalizing emission with
  | nil => rfl
  | cons action rest ih =>
    rw [List.foldl_cons, ih, List.countP_cons]
    cases action with
    | place location data =>
      have one : (emission.append location data).listing.size = emission.listing.size + 1 :=
        Array.size_push _
      rw [perform, one, Action.isPlace, if_pos rfl]
      omega
    | bind | declare => rfl

/-- Bytes are emitted wherever there is room for all of them. -/
theorem walk_room (actions : List Action) (emission : Emission)
    (room : actions.any Action.isPlace = true →
      (actions.foldl perform emission).address ≤ other.capacity) :
    emission.walk other actions = .ok (actions.foldl perform emission) := by
  induction actions generalizing emission with
  | nil => rfl
  | cons action rest ih =>
    have fits : action.emit other emission = .ok (emission.perform action) := by
      cases action with
      | place location data =>
        have all := room rfl
        have some := address_le_perform rest (emission.append location data)
        rw [address_append] at some
        rw [List.foldl_cons, perform] at all
        have fits : emission.fits other data.length = true := decide_eq_true (by omega)
        exact if_pos fits
      | bind | declare => rfl
    rw [walk, List.foldlM_cons, fits]
    refine ih (emission.perform action) fun placed ↦ room ?_
    rw [List.any_cons, placed, Bool.or_true]

end Emission

/-! ## Programs -/

section

variable {limits : Limits} {final : SymbolTable} {layout layout' : Layout}
  {emission emission' : Emission}

/-- What a program that is accepted does does not depend on the limits. -/
theorem exists_actions_walk {statements : List Statement}
    (kept : SizesKept limits final layout statements)
    (laid : statements.foldlM (Layout.statement limits) layout = .ok layout')
    (emitted : statements.foldlM (Emission.statement limits final) emission = .ok emission')
    (same : emission.address = layout.size) :
    ∃ actions, Does layout emission
      (fun limits ↦ statements.foldlM (Layout.statement limits) layout)
      (fun limits ↦ statements.foldlM (Emission.statement limits final) emission) actions := by
  induction statements generalizing layout emission with
  | nil => exact ⟨[], fun _ ↦ rfl, fun _ ↦ rfl⟩
  | cons statement rest ih =>
    rw [List.foldlM_cons] at laid emitted
    obtain ⟨next, hnext, laid⟩ := Selection.bind_eq_ok.mp laid
    obtain ⟨next', hnext', emitted⟩ := Selection.bind_eq_ok.mp emitted
    have keptHere := (kept [] statement rest layout · · rfl rfl)
    obtain ⟨actions, first⟩ := exists_actions_statement hnext hnext' keptHere same
    obtain ⟨more, others⟩ := ih (kept.tail hnext) laid emitted
      (address_statement hnext hnext' keptHere same)
    refine ⟨actions ++ more, fun other ↦ ?_, fun other ↦ ?_⟩
    · rw [List.foldlM_cons, Layout.walk_append, ← first.layout]
      cases reached : layout.statement other statement with
      | error failure => rfl
      | ok layout =>
        have reaches := Layout.reaches_walk (first.layout limits ▸ hnext)
        cases reaches.unique (first.layout other ▸ reached)
        exact others.layout other
    · rw [List.foldlM_cons, Emission.walk_append, ← first.emission]
      cases reached : emission.statement other final statement with
      | error diagnostic => rfl
      | ok emission =>
        have here := Emission.walk_ok (first.emission limits ▸ hnext')
        have there := Emission.walk_ok (first.emission other ▸ reached)
        cases there.trans here.symm
        exact others.emission other

end

/-! ## Constants -/

namespace Statement

/-- The name that an `equ` or a `set` binds. -/
def constant? (statement : Statement) : Option String :=
  match statement.kind with
  | .directive .equ (⟨_, _, .symbol name⟩ :: _) => some name
  | .directive .set (⟨_, _, .symbol name⟩ :: _) => some name
  | _ => none

theorem constant?_of_assigned? {statement : Statement} {name : String}
    (assigned : statement.assigned? = some name) : statement.constant? = some name := by
  unfold assigned? at assigned
  split at assigned
  · rename_i kind
    rw [constant?, kind]
    exact assigned
  · cases assigned

end Statement

/-- No name is bound more than once by `equ` or `set`. -/
def ConstantsOnce (statements : List Statement) : Prop :=
  (statements.filterMap Statement.constant?).Nodup

section

variable {limits : Limits} {layout layout' : Layout} {name : String} {value : Int}

/-- A constant has been one before, or the statement binds it as one. -/
theorem constant_of_statement {statement : Statement}
    (laid : layout.statement limits statement = .ok layout')
    (constant : layout'.symbols.bound? name = some (value, true)) :
    layout.symbols.bound? name = some (value, true) ∨ statement.constant? = some name := by
  by_cases bound : statement.bound? = some name
  · obtain ⟨slot, location, kind⟩ := statement
    cases kind with
    | label label =>
      obtain ⟨-, defined⟩ := Layout.define_ok (Layout.attempt_eq_ok.mp laid)
      cases bound
      rw [(SymbolTable.define_ok defined).2, if_pos rfl] at constant
      cases constant
    | instruction => cases bound
    | directive directive arguments =>
      cases directive with
      | equ | set =>
        obtain ⟨_, _, _, _, _, rfl, -⟩ := Layout.bind_ok (Layout.attempt_eq_ok.mp laid)
        exact .inr bound
      | _ => cases bound
  · rw [(Layout.binds_statement laid).others name bound] at constant
    exact .inl constant

theorem constant_of_walk {statements : List Statement}
    (laid : statements.foldlM (Layout.statement limits) layout = .ok layout')
    (constant : layout'.symbols.bound? name = some (value, true)) :
    layout.symbols.bound? name = some (value, true) ∨
      ∃ statement ∈ statements, statement.constant? = some name := by
  induction statements generalizing layout with
  | nil =>
    cases laid
    exact .inl constant
  | cons statement rest ih =>
    rw [List.foldlM_cons] at laid
    obtain ⟨next, first, laid⟩ := Selection.bind_eq_ok.mp laid
    obtain before | ⟨binder, member, binds⟩ := ih laid
    · refine (constant_of_statement first before).imp_right fun binds ↦ ?_
      exact ⟨statement, List.mem_cons_self, binds⟩
    · exact .inr ⟨binder, List.mem_cons_of_mem _ member, binds⟩

/-- Where no constant is bound twice, none that sizes a padding is set later, so sizes are kept. -/
theorem sizesKept_of_constantsOnce {statements : List Statement}
    (once : ConstantsOnce statements)
    (laid : Layout.ofStatements limits statements = .ok layout) :
    SizesKept limits layout.symbols .empty statements := by
  refine sizesKept_of_unset_after laid ?_
  rintro before statement after reached name value rfl walked - constant other member assigned
  have bound := SymbolTable.bound?_of_constant? constant
  obtain new | ⟨binder, earlier, binds⟩ := constant_of_walk walked bound
  · cases new
  · have apart := (List.pairwise_append.mp (List.pairwise_filterMap.mp once)).2.2 binder earlier
      other (List.mem_cons_of_mem _ member)
    exact apart name binds name (Statement.constant?_of_assigned? assigned) rfl

end

/-! ## Results -/

/-- What comes of a program that is accepted under some limits, under other ones. -/
theorem Program.result_under {limits : Limits} {program : Program} {layout : Layout}
    {emission : Emission} (once : ConstantsOnce program.statements)
    (laid : Layout.ofStatements limits program.statements = .ok layout)
    (emitted : Emission.ofStatements limits layout.symbols program.statements = .ok emission) :
    emission.address = layout.size ∧
      ∃ places, (places = true ↔ emission.listing ≠ #[]) ∧ ∀ other,
        (¬layout.Overflows other places → ¬Layout.empty.Overfills other layout →
          program.result other = (.ok (), layout.symbols, emission)) ∧
        (layout.Overflows other places ∨ Layout.empty.Overfills other layout →
          ∃ diagnostic, (program.result other).1 = .error diagnostic ∧
            Layout.empty.Refuses other places layout diagnostic) := by
  have kept := sizesKept_of_constantsOnce once laid
  have same := address_walk kept laid emitted rfl
  obtain ⟨actions, does⟩ := exists_actions_walk kept laid emitted rfl
  have reaches := Layout.reaches_walk ((does.layout limits).symm.trans laid)
  have performed := Emission.walk_ok ((does.emission limits).symm.trans emitted)
  have entries : emission.listing.size = 0 + actions.countP Action.isPlace := by
    rw [performed]
    exact Emission.size_listing_perform actions .empty
  refine ⟨same, actions.any Action.isPlace, ?_,
    fun other ↦ ⟨fun code table ↦ ?_, fun exceeded ↦ ?_⟩⟩
  · rw [List.any_eq_true, ← List.countP_pos_iff, ← Nat.zero_add (actions.countP _), ← entries,
      Ne, ← Array.size_eq_zero_iff]
    exact Nat.pos_iff_ne_zero
  · have laidOut : Layout.ofStatements other program.statements = .ok layout :=
      (does.layout other).trans (reaches.room other code table)
    have emits : Emission.ofStatements other layout.symbols program.statements = .ok emission := by
      rw [performed]
      refine (does.emission other).trans (Emission.walk_room actions .empty fun placed ↦ ?_)
      rw [← performed, same]
      exact Int.not_lt.mp fun full ↦ code ⟨placed, full⟩
    rw [result, laidOut]
    dsimp only
    rw [emits]
  · obtain ⟨failure, failed, refused⟩ := reaches.lack other exceeded
    have laidOut : Layout.ofStatements other program.statements = .error failure :=
      (does.layout other).trans failed
    refine ⟨failure.diagnostic, ?_, refused⟩
    rw [result, laidOut]

/-- What an answer shows is shown by an answer that has been given. -/
theorem exists_ok_of_toOption {ε α β : Type} {result : Except ε α} {part : α → β} {shown : β}
    (h : result.toOption.map part = some shown) :
    ∃ answer, result = .ok answer ∧ part answer = shown := by
  cases result with
  | error error => cases h
  | ok answer => exact ⟨answer, rfl, Option.some.inj h⟩

namespace Generator

variable {generator : Generator} {source file : String} {code : List UInt8}

/-- A source that is accepted has a program, with a layout and an emission. -/
theorem exists_program_of_ok (done : (generator.after (assemble source file)).1 = .ok code) :
    ∃ program layout emission,
      Program.parse source file generator.limits.nodes = .ok program ∧
      Layout.ofStatements generator.limits program.statements = .ok layout ∧
      Emission.ofStatements generator.limits layout.symbols program.statements = .ok emission ∧
      emission.code.toList = code ∧
      (generator.after (assemble source file)).2.symbols = layout.symbols ∧
      (generator.after (assemble source file)).2.listing = emission.listing := by
  have assembled : generator.view.assemble source file =
      (.ok code, (generator.after (assemble source file)).2.view) := by
    rw [← view_assemble, done]
  obtain ⟨program, read, ⟨⟨layout, laid, symbols⟩, emitted⟩, code_eq⟩ :=
    Assembler.assemble_ok assembled
  rw [← symbols] at emitted
  exact ⟨program, layout, _, read, laid, emitted, code_eq, symbols.symm, rfl⟩

/--
Limits only ever refuse, and exactly when they are exceeded. A source that binds no constant twice
and that some generator has assembled is assembled to the same code, symbols and listing by every
generator whose limits have room for it. One with too few nodes for it reports that; and one with
nodes enough, but with too little room for the code or for the symbols, reports a limit that is
exceeded. Room for code is asked for only if something is emitted, and room for symbols only if
there is one. By trials the answer is the same, unless the source exceeds a limit of the host while it
is read, or the limit that is reported is too long a number for the message.
-/
theorem assemble_under_limits (done : (generator.after (assemble source file)).1 = .ok code) :
    ∃ program, Program.parse source file generator.limits.nodes = .ok program ∧
      (ConstantsOnce program.statements → ∀ other : Generator,
        let first := (generator.after (assemble source file)).2
        let again := other.after (assemble source file)
        let codeExceeded := other.limits.capacity < code.length ∧ first.listing ≠ #[]
        let symbolsExceeded :=
          other.limits.symbols < first.symbols.entries.length ∧ first.symbols.entries ≠ []
        (program.nodes ≤ other.limits.nodes → ¬codeExceeded → ¬symbolsExceeded →
          again.1 = .ok code ∧ again.2.code.toList = code ∧ again.2.symbols = first.symbols ∧
            again.2.listing = first.listing) ∧
        (other.limits.nodes < program.nodes → ∃ diagnostic, again.1 = .error diagnostic ∧
          diagnostic.error = .nodePoolExhausted other.limits.nodes) ∧
        (program.nodes ≤ other.limits.nodes → codeExceeded ∨ symbolsExceeded →
          ∃ diagnostic, again.1 = .error diagnostic ∧
            (codeExceeded ∧ diagnostic.error = .codeBufferOverflow other.limits.capacity ∨
              symbolsExceeded ∧ diagnostic.error = .symbolTableFull other.limits.symbols)) ∧
        ∀ depth : Nat,
          (∃ limit, Pull.Task.Exceeds ⟨source, file, other.limits.nodes, depth⟩ limit ∧
            (other.attempt depth source file).1 = .error (.lapse (.limit limit))) ∨
          (other.attempt depth source file).1 = again.1.mapError Raised.of) := by
  obtain ⟨program, layout, emission, read, laid, emits, rfl, symbols, listing⟩ :=
    exists_program_of_ok done
  refine ⟨program, read, fun once other ↦ ?_⟩
  intro first again codeExceeded symbolsExceeded
  obtain ⟨same, places, placed, under⟩ := Program.result_under once laid emits
  obtain ⟨room, lack⟩ := under other.limits
  obtain ⟨reread, unread⟩ := Program.parse_metered read other.limits.nodes
  have codeIff : codeExceeded ↔ layout.Overflows other.limits places := by
    simp only [codeExceeded, first, listing, Layout.Overflows, placed, ← same,
      Emission.address_eq_length]
    exact and_comm
  have symbolsIff : symbolsExceeded ↔ Layout.empty.Overfills other.limits layout := by
    simp only [symbolsExceeded, first, symbols, Layout.Overfills]
    rw [← List.length_pos_iff]
    exact and_comm
  refine ⟨fun nodes codeFits symbolsFit ↦ ?_, fun few ↦ ?_, fun nodes exceeded ↦ ?_,
    fun depth ↦ other.answer_attempt_cases depth source file⟩
  · obtain ⟨answer, log, shown⟩ := after_read (reread nodes)
    have result := room (mt codeIff.mpr codeFits) (mt symbolsIff.mpr symbolsFit)
    rw [Assembler.finish, show other.view.limits = other.limits from rfl, result] at shown
    rw [result] at answer
    exact ⟨answer, congrArg (fun assembler ↦ assembler.emission.code.toList) shown,
      (congrArg Assembler.symbols shown).trans symbols.symm,
      (congrArg (fun assembler ↦ assembler.emission.listing) shown).trans listing.symm⟩
  · obtain ⟨location, refused⟩ := unread few
    exact ⟨_, (after_unreadable refused).1, Diagnostic.error_locate ..⟩
  · obtain ⟨answer, -⟩ := after_read (reread nodes)
    obtain ⟨diagnostic, failed, refused⟩ := lack (exceeded.imp codeIff.mp symbolsIff.mp)
    rw [failed] at answer
    refine ⟨_, answer, ?_⟩
    rw [Diagnostic.error_locate]
    exact refused.imp (And.imp_left codeIff.mpr) (And.imp_left symbolsIff.mpr)

/-- A program of four bytes, two symbols and six nodes, at its limits and one below each of them. -/
theorem assemble_under_limits_exact :
    let source := "top: nop\n.equ n, 4"
    let answer (limits : Limits) := ((new limits).after (assemble source "<input>")).1
    answer {} = .ok [0x1f, 0x20, 0x03, 0xd5] ∧
      answer { capacity := 4, symbols := 2, nodes := 6 } = .ok [0x1f, 0x20, 0x03, 0xd5] ∧
      (∃ diagnostic, answer { capacity := 3, symbols := 2, nodes := 6 } = .error diagnostic ∧
        diagnostic.error = .codeBufferOverflow 3) ∧
      (∃ diagnostic, answer { capacity := 4, symbols := 1, nodes := 6 } = .error diagnostic ∧
        diagnostic.error = .symbolTableFull 1) ∧
      ∃ diagnostic, answer { capacity := 4, symbols := 2, nodes := 5 } = .error diagnostic ∧
        diagnostic.error = .nodePoolExhausted 5 := by
  intro source answer
  have done : answer {} = .ok [0x1f, 0x20, 0x03, 0xd5] := by
    have bytes : (answer {}).toOption = some [0x1f, 0x20, 0x03, 0xd5] := by decide +kernel
    cases answered : answer {} with
    | error diagnostic =>
      rw [answered] at bytes
      cases bytes
    | ok code =>
      rw [answered] at bytes
      exact congrArg Except.ok (Option.some.inj bytes)
  have entries : ((new {}).after (assemble source "<input>")).2.symbols.entries.length = 2 := by
    decide +kernel
  have listing : ((new {}).after (assemble source "<input>")).2.listing ≠ #[] := by
    decide +kernel
  obtain ⟨program, read, under⟩ := assemble_under_limits done
  have parsed : (Program.parse source "<input>" (new {}).limits.nodes).toOption.map
      (fun program ↦ (program.statements.filterMap Statement.constant?, program.nodes)) =
        some (["n"], 6) := by decide +kernel
  rw [read] at parsed
  obtain ⟨constants, nodes⟩ := Prod.mk.inj (Option.some.inj parsed)
  have once : ConstantsOnce program.statements := by
    rw [ConstantsOnce, constants]
    decide
  have nodesFit : program.nodes ≤ (6 : Int) := by
    rw [nodes]
    decide
  have symbolsFit (limit : Int) (room : 2 ≤ limit) :
      ¬limit < ((new {}).after (assemble source "<input>")).2.symbols.entries.length := by
    rw [entries]
    exact Int.not_lt.mpr room
  refine ⟨done, ?_, ?_, ?_, ?_⟩
  · obtain ⟨room, -⟩ := under once (new { capacity := 4, symbols := 2, nodes := 6 })
    exact (room nodesFit (fun full ↦ absurd full.1 (by decide))
      fun full ↦ symbolsFit 2 (by decide) full.1).1
  · obtain ⟨-, -, lack, -⟩ := under once (new { capacity := 3, symbols := 2, nodes := 6 })
    obtain ⟨diagnostic, failed, ⟨-, full⟩ | ⟨full, -⟩⟩ :=
      lack nodesFit (.inl ⟨by decide, listing⟩)
    · exact ⟨diagnostic, failed, full⟩
    · exact absurd full.1 (symbolsFit 2 (by decide))
  · obtain ⟨-, -, lack, -⟩ := under once (new { capacity := 4, symbols := 1, nodes := 6 })
    have some : ((new {}).after (assemble source "<input>")).2.symbols.entries ≠ [] := by
      rw [← List.length_pos_iff, entries]
      decide
    have overfilled : (1 : Int) <
        ((new {}).after (assemble source "<input>")).2.symbols.entries.length := by
      rw [entries]
      decide
    obtain ⟨diagnostic, failed, ⟨full, -⟩ | ⟨-, full⟩⟩ := lack nodesFit (.inr ⟨overfilled, some⟩)
    · exact absurd full.1 (by decide)
    · exact ⟨diagnostic, failed, full⟩
  · obtain ⟨-, lack, -⟩ := under once (new { capacity := 4, symbols := 2, nodes := 5 })
    refine lack ?_
    rw [nodes]
    decide

/-- A negative capacity does not refuse a source that emits nothing. -/
theorem assemble_negative_capacity :
    let answer (limits : Limits) := ((new limits).after (assemble "" "<input>")).1.toOption
    (Program.parse "" "<input>" 4096).toOption.map (·.statements) = some [] ∧
      answer {} = some [] ∧ (-1 : Int) < ([] : List UInt8).length ∧
      answer { capacity := -1 } = some [] := by
  decide +kernel

end Generator

end MiniA64
