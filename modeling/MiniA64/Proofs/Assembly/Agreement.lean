import MiniA64.Assembly.Assembler
import MiniA64.Proofs.Assembly.Bindings
import MiniA64.Proofs.Bytes

/-!
# Layout and emission agree

The layout counts the bytes that the emission makes. Statement by statement the two make the same
room, if the constant that tells the length of a padding is the same in the final symbols as it was
when the padding was laid out. That holds along a program in which `set` binds no name anew, because
there the final symbols extend those of every place, and wherever no name is set after a padding that
it sizes.
-/

namespace MiniA64

/-! ## The size of a padding -/

/-- The name that an operand is. -/
def OperandKind.symbol? : OperandKind → Option String
  | symbol name => some name
  | _ => none

/-- The directives that stand for padding. -/
def Directive.pads : Directive → Bool
  | align | balign | p2align | space | skip => true
  | _ => false

/-- The constant that tells how long the padding of a statement is. -/
def Statement.sizedBy? (statement : Statement) : Option String :=
  match statement.kind with
  | .directive name (size :: _) => if name.pads then size.kind.symbol? else none
  | _ => none

namespace Padding

variable {symbols symbols' : SymbolTable} {padding padding' : Padding} {location : Location}
  {size : Operand} {rest : List Operand}

theorem constant_of_kept {what : String} {value : Int}
    (kept : ∀ name value, size.kind.symbol? = some name → symbols.constant? name = some value →
      symbols'.constant? name = some value)
    (h : constant symbols what size = .ok value) : constant symbols' what size = .ok value := by
  simp only [constant] at h ⊢
  split at h
  · rename_i found known
    cases h
    cases hkind : size.kind <;> simp only [hkind] at known ⊢ <;> try cases known
    · rfl
    · rw [kept _ _ (by rw [hkind]; rfl) known]
  · cases h

theorem size_of_arguments? {sized : Operand} {fill : Option Operand}
    (h : arguments? (size :: rest) = some (sized, fill)) : sized = size := by
  obtain _ | ⟨second, _ | ⟨third, rest⟩⟩ := rest <;> cases h <;> rfl

/-- An alignment that is accepted under two tables is as long under both, whatever its fill is. -/
theorem count_ofAlignment {directive : Directive} {address : Nat}
    (kept : ∀ name value, size.kind.symbol? = some name → symbols.constant? name = some value →
      symbols'.constant? name = some value)
    (h : ofAlignment symbols directive location (size :: rest) address = .ok padding)
    (h' : ofAlignment symbols' directive location (size :: rest) address = .ok padding') :
    padding'.count = padding.count := by
  unfold ofAlignment at h h'
  split at h
  · cases h
  rename_i sized fill split
  cases size_of_arguments? split
  simp only [split] at h'
  obtain ⟨amount, hamount, h⟩ := Selection.bind_eq_ok.mp h
  obtain ⟨boundary, hboundary, h⟩ := Selection.bind_eq_ok.mp h
  obtain ⟨_, -, h⟩ := Selection.bind_eq_ok.mp h
  obtain ⟨amount', hamount', h'⟩ := Selection.bind_eq_ok.mp h'
  obtain ⟨boundary', hboundary', h'⟩ := Selection.bind_eq_ok.mp h'
  obtain ⟨_, -, h'⟩ := Selection.bind_eq_ok.mp h'
  cases (constant_of_kept kept hamount).symm.trans hamount'
  cases hboundary.symm.trans hboundary'
  cases Selection.pure_eq_ok.mp h
  cases Selection.pure_eq_ok.mp h'
  rfl

theorem count_ofSpace
    (kept : ∀ name value, size.kind.symbol? = some name → symbols.constant? name = some value →
      symbols'.constant? name = some value)
    (h : ofSpace symbols location (size :: rest) = .ok padding)
    (h' : ofSpace symbols' location (size :: rest) = .ok padding') :
    padding'.count = padding.count := by
  unfold ofSpace at h h'
  split at h
  · cases h
  rename_i sized fill split
  cases size_of_arguments? split
  simp only [split] at h'
  obtain ⟨count, hcount, h⟩ := Selection.bind_eq_ok.mp h
  obtain ⟨count', hcount', h'⟩ := Selection.bind_eq_ok.mp h'
  cases (constant_of_kept kept hcount).symm.trans hcount'
  split at h
  · cases h
  rename_i natural
  rw [if_neg natural] at h'
  obtain ⟨_, -, h⟩ := Selection.bind_eq_ok.mp h
  obtain ⟨_, -, h'⟩ := Selection.bind_eq_ok.mp h'
  cases Selection.pure_eq_ok.mp h
  cases Selection.pure_eq_ok.mp h'
  rfl

theorem length_bytes (padding : Padding) : padding.bytes.length = padding.count :=
  List.length_replicate

end Padding

theorem Data.length_ofValue {symbols : SymbolTable} {width : Nat} {argument : Operand}
    {data : List UInt8} (h : ofValue symbols width argument = .ok data) :
    data.length = width := by
  unfold ofValue at h
  split at h <;> obtain ⟨value, -, h⟩ := Selection.bind_eq_ok.mp h
  all_goals
    dsimp only at h
    split at h
    · cases h
    · cases Selection.pure_eq_ok.mp h
      exact length_toLittleEndian width _

/-! ## Emission -/

namespace Emission

variable {limits : Limits} {symbols : SymbolTable} {emission emission' : Emission}

theorem emit_ok {location : Location} {data : List UInt8}
    (h : emission.emit limits location data = .ok emission') :
    emission' = emission.append location data := by
  rw [emit] at h
  split at h
  · exact (Except.ok.inj h).symm
  · cases h

theorem emitPadding_ok {location : Location} {padding : Padding}
    (h : emission.emitPadding limits location padding = .ok emission') :
    emission' = emission.append location padding.bytes := by
  rw [emitPadding] at h
  split at h
  · exact (Except.ok.inj h).symm
  · cases h

theorem address_eq_length (emission : Emission) :
    emission.address = emission.code.toList.length := Array.length_toList.symm

@[simp] theorem code_append (location : Location) (data : List UInt8) :
    (emission.append location data).code.toList = emission.code.toList ++ data :=
  Array.toList_appendList

theorem address_append (location : Location) (data : List UInt8) :
    (emission.append location data).address = emission.address + data.length := by
  rw [address_eq_length, code_append, List.length_append, address_eq_length]

theorem each_ok {location : Location} {absent : DirectiveError} {arguments : List Operand}
    {data : Operand → Except Diagnostic (List UInt8)}
    (h : emission.each limits location absent arguments data = .ok emission') :
    arguments.foldlM (fun emission argument ↦ do
      emission.emit limits argument.location (← data argument)) emission = .ok emission' := by
  rw [each] at h
  split at h
  · cases h
  · exact h

theorem instruction_ok {location : Location} {mnemonic : Mnemonic} {spelling : String}
    {operands : List Operand}
    (h : emission.instruction limits symbols location mnemonic spelling operands =
      .ok emission') :
    ∃ instruction : Instruction,
      mnemonic.select ⟨symbols, emission.address, location, spelling⟩ operands = .ok instruction ∧
        emission' = emission.append location instruction.encode.toBytes := by
  obtain ⟨instruction, selected, h⟩ := Selection.bind_eq_ok.mp h
  exact ⟨instruction, selected, emit_ok h⟩

/-- Padding of no bytes is not noted, which makes no difference to the code. -/
theorem align_ok {location : Location} {result : Except Diagnostic Padding}
    (h : (do
      let padding ← result
      if padding.count = 0 then return emission
      else emission.emitPadding limits location padding) = .ok emission') :
    ∃ padding, result = .ok padding ∧
      emission'.code.toList = emission.code.toList ++ padding.bytes := by
  obtain ⟨padding, hpadding, h⟩ := Selection.bind_eq_ok.mp h
  refine ⟨padding, hpadding, ?_⟩
  split at h
  · rename_i reached
    cases Selection.pure_eq_ok.mp h
    simp [reached, Padding.bytes]
  · cases emitPadding_ok h
    exact code_append location padding.bytes

/-! ## Code only grows -/

theorem prefix_emit {location : Location} {data : List UInt8}
    (h : emission.emit limits location data = .ok emission') :
    emission.code.toList <+: emission'.code.toList := by
  cases emit_ok h
  rw [code_append]
  exact List.prefix_append _ _

theorem prefix_each {location : Location} {absent : DirectiveError} {arguments : List Operand}
    {data : Operand → Except Diagnostic (List UInt8)}
    (h : emission.each limits location absent arguments data = .ok emission') :
    emission.code.toList <+: emission'.code.toList := by
  have folded := each_ok h
  clear h
  induction arguments generalizing emission with
  | nil =>
    cases folded
    exact List.prefix_rfl
  | cons argument rest ih =>
    rw [List.foldlM_cons] at folded
    obtain ⟨next, hnext, folded⟩ := Selection.bind_eq_ok.mp folded
    obtain ⟨bytes, -, emitted⟩ := Selection.bind_eq_ok.mp hnext
    exact (prefix_emit emitted).trans (ih folded)

theorem prefix_statement {statement : Statement}
    (h : emission.statement limits symbols statement = .ok emission') :
    emission.code.toList <+: emission'.code.toList := by
  obtain ⟨slot, location, kind⟩ := statement
  cases kind with
  | label name =>
    cases h
    exact List.prefix_rfl
  | instruction mnemonic spelling operands =>
    obtain ⟨instruction, -, rfl⟩ := instruction_ok h
    rw [code_append]
    exact List.prefix_append _ _
  | directive name arguments =>
    cases name with
    | text | data | bss | external | global | globl | equ | set =>
      cases h
      exact List.prefix_rfl
    | namedSection =>
      obtain ⟨_, -, result⟩ := Selection.bind_eq_ok.mp h
      cases Selection.pure_eq_ok.mp result
      exact List.prefix_rfl
    | align | balign | p2align =>
      obtain ⟨padding, -, code⟩ := align_ok h
      rw [code]
      exact List.prefix_append _ _
    | byte | hword | word | quad | ascii | asciz | string => exact prefix_each h
    | space | skip =>
      obtain ⟨padding, -, padded⟩ := Selection.bind_eq_ok.mp h
      cases emitPadding_ok padded
      rw [code_append]
      exact List.prefix_append _ _

theorem prefix_walk {statements : List Statement}
    (h : statements.foldlM (statement limits symbols) emission = .ok emission') :
    emission.code.toList <+: emission'.code.toList := by
  induction statements generalizing emission with
  | nil =>
    cases h
    exact List.prefix_rfl
  | cons statement rest ih =>
    rw [List.foldlM_cons] at h
    obtain ⟨next, hnext, h⟩ := Selection.bind_eq_ok.mp h
    exact (prefix_statement hnext).trans (ih h)

end Emission

/-! ## The two walks -/

section

variable {limits : Limits} {final : SymbolTable} {layout layout' : Layout}
  {emission emission' : Emission}

/-- Arguments take the same room in both walks if each of them does. -/
theorem address_each {location place : Location} {absent absent' : DirectiveError}
    {arguments : List Operand} {step : Layout → Operand → Except Diagnostic Layout}
    {data : Operand → Except Diagnostic (List UInt8)}
    (agree : ∀ {layout argument layout' bytes}, step layout argument = .ok layout' →
      data argument = .ok bytes → layout'.size = layout.size + bytes.length)
    (laid : layout.each location absent arguments step = .ok layout')
    (emitted : emission.each limits place absent' arguments data = .ok emission')
    (same : emission.address = layout.size) : emission'.address = layout'.size := by
  replace laid := Layout.each_ok laid
  replace emitted := Emission.each_ok emitted
  induction arguments generalizing layout emission with
  | nil =>
    cases laid
    cases emitted
    exact same
  | cons argument rest ih =>
    rw [List.foldlM_cons] at laid emitted
    obtain ⟨next, hnext, laid⟩ := Selection.bind_eq_ok.mp laid
    obtain ⟨next', hnext', emitted⟩ := Selection.bind_eq_ok.mp emitted
    obtain ⟨bytes, hbytes, hemit⟩ := Selection.bind_eq_ok.mp hnext'
    refine ih ?_ laid emitted
    rw [Emission.emit_ok hemit, Emission.address_append, same,
      agree (Layout.attempt_eq_ok.mp hnext) hbytes]

theorem address_values {location : Location} {width : Nat} {arguments : List Operand}
    (laid : layout.placeValues limits location width arguments = .ok layout')
    (emitted : emission.emitValues limits final location width arguments = .ok emission')
    (same : emission.address = layout.size) : emission'.address = layout'.size := by
  refine address_each (fun step data ↦ ?_) laid emitted same
  rw [Layout.advance_ok step, Data.length_ofValue data]

/-- One statement makes the same room in both walks if the constant that sizes it is kept. -/
theorem address_statement {statement : Statement}
    (laid : layout.statement limits statement = .ok layout')
    (emitted : emission.statement limits final statement = .ok emission')
    (kept : ∀ name value, statement.sizedBy? = some name →
      layout.symbols.constant? name = some value → final.constant? name = some value)
    (same : emission.address = layout.size) : emission'.address = layout'.size := by
  obtain ⟨slot, location, kind⟩ := statement
  cases kind with
  | label name =>
    cases emitted
    rw [(Layout.define_ok (Layout.attempt_eq_ok.mp laid)).1, same]
  | instruction mnemonic spelling operands =>
    obtain ⟨instruction, -, rfl⟩ := Emission.instruction_ok emitted
    rw [Layout.advance_ok (Layout.attempt_eq_ok.mp laid), Emission.address_append, same,
      Word.length_toBytes]
  | directive name arguments =>
    cases name with
    | text | data | bss | external =>
      cases laid
      cases emitted
      exact same
    | namedSection =>
      obtain ⟨_, -, laid⟩ := Selection.bind_eq_ok.mp laid
      obtain ⟨_, -, emitted⟩ := Selection.bind_eq_ok.mp emitted
      cases Selection.pure_eq_ok.mp laid
      cases Selection.pure_eq_ok.mp emitted
      exact same
    | global | globl =>
      cases emitted
      refine Eq.trans same (Layout.each_induction (fun first second ↦ first.size = second.size)
        (fun _ ↦ rfl) Eq.trans (fun step ↦ ?_) laid)
      exact (Layout.declare_ok step).1.symm
    | equ | set =>
      cases emitted
      obtain ⟨_, _, name, rest, value, -, defined⟩ :=
        Layout.bind_ok (Layout.attempt_eq_ok.mp laid)
      rw [(Layout.define_ok defined).1, same]
    | align | balign | p2align =>
      obtain ⟨padding, hpadding, rfl⟩ := Layout.align_ok (Layout.attempt_eq_ok.mp laid)
      obtain ⟨padding', hpadding', code⟩ := Emission.align_ok emitted
      rw [same] at hpadding'
      have count : padding'.count = padding.count := by
        cases arguments with
        | nil => cases hpadding
        | cons size rest => exact Padding.count_ofAlignment kept hpadding hpadding'
      rw [Emission.address_eq_length, code, List.length_append, padding'.length_bytes,
        ← Emission.address_eq_length, same, count]
    | byte | hword | word | quad => exact address_values laid emitted same
    | ascii | asciz | string =>
      refine address_each (fun step placed ↦ ?_) laid emitted same
      obtain ⟨data, hdata, rfl⟩ := Layout.placeString_ok step
      rw [hdata] at placed
      cases placed
      rfl
    | space | skip =>
      obtain ⟨padding, hpadding, rfl⟩ := Layout.reserve_ok (Layout.attempt_eq_ok.mp laid)
      obtain ⟨padding', hpadding', emitted⟩ := Selection.bind_eq_ok.mp emitted
      have count : padding'.count = padding.count := by
        cases arguments with
        | nil => cases hpadding
        | cons size rest => exact Padding.count_ofSpace kept hpadding hpadding'
      rw [Emission.emitPadding_ok emitted, Emission.address_append, padding'.length_bytes, same,
        count]

/--
Every constant that tells the length of a padding has in the final symbols the value that it has
where the padding stands.
-/
def SizesKept (limits : Limits) (final : SymbolTable) (layout : Layout)
    (statements : List Statement) : Prop :=
  ∀ before statement after reached name value, statements = before ++ statement :: after →
    before.foldlM (Layout.statement limits) layout = .ok reached →
    statement.sizedBy? = some name → reached.symbols.constant? name = some value →
    final.constant? name = some value

theorem SizesKept.tail {statement : Statement} {rest : List Statement}
    (kept : SizesKept limits final layout (statement :: rest))
    (laid : layout.statement limits statement = .ok layout') :
    SizesKept limits final layout' rest := by
  intro before other after reached name value split walked
  refine kept (statement :: before) other after reached name value (by rw [split]; rfl) ?_
  rw [List.foldlM_cons]
  exact Selection.bind_eq_ok.mpr ⟨layout', laid, walked⟩

/-- The two walks agree on the address after any statements whose sizes are kept. -/
theorem address_walk {statements : List Statement}
    (kept : SizesKept limits final layout statements)
    (laid : statements.foldlM (Layout.statement limits) layout = .ok layout')
    (emitted : statements.foldlM (Emission.statement limits final) emission = .ok emission')
    (same : emission.address = layout.size) : emission'.address = layout'.size := by
  induction statements generalizing layout emission with
  | nil =>
    cases laid
    cases emitted
    exact same
  | cons statement rest ih =>
    rw [List.foldlM_cons] at laid emitted
    obtain ⟨next, hnext, laid⟩ := Selection.bind_eq_ok.mp laid
    obtain ⟨next', hnext', emitted⟩ := Selection.bind_eq_ok.mp emitted
    have here := address_statement hnext hnext' (kept [] statement rest layout · · rfl rfl) same
    exact ih (kept.tail hnext) laid emitted here

theorem SizesKept.of_append {before after : List Statement}
    (kept : SizesKept limits final layout (before ++ after)) :
    SizesKept limits final layout before := by
  rintro earlier statement later reached name value rfl
  exact kept earlier statement (later ++ after) reached name value (by simp)

theorem Statement.assigned?_of_sizedBy? {statement : Statement} {name : String}
    (sized : statement.sizedBy? = some name) : statement.assigned? = none := by
  unfold sizedBy? at sized
  split at sized
  · rename_i directive size rest hkind
    rw [assigned?, hkind]
    cases directive with
    | set => cases sized
    | _ => rfl
  · cases sized

theorem SymbolTable.bound?_of_constant? {table : SymbolTable} {name : String} {value : Int}
    (h : table.constant? name = some value) : table.bound? name = some (value, true) := by
  rw [constant?_eq_bound?] at h
  obtain ⟨⟨found, isConstant⟩, hbound, h⟩ := Option.bind_eq_some_iff.mp h
  cases isConstant with
  | false => cases h
  | true =>
    cases h
    exact hbound

/-- Sizes are kept wherever the constant that sizes a padding is not set from there on. -/
theorem sizesKept_of_unset_after {statements : List Statement}
    (laid : Layout.ofStatements limits statements = .ok layout)
    (unset : ∀ before statement after reached name value,
      statements = before ++ statement :: after →
      before.foldlM (Layout.statement limits) .empty = .ok reached →
      statement.sizedBy? = some name → reached.symbols.constant? name = some value →
      ∀ other ∈ after, other.assigned? ≠ some name) :
    SizesKept limits layout.symbols .empty statements := by
  rintro before statement after reached name value rfl walked sized constant
  rw [Layout.ofStatements, List.foldlM_append] at laid
  obtain ⟨_, walked', laid⟩ := Selection.bind_eq_ok.mp laid
  cases walked.symm.trans walked'
  have unsetHere : ∀ other ∈ statement :: after, other.assigned? ≠ some name := by
    intro other member
    rcases List.mem_cons.mp member with rfl | member
    · rw [Statement.assigned?_of_sizedBy? sized]
      nofun
    · exact unset before statement after reached name value rfl walked sized constant other member
  have bound := Layout.keeps_walk laid (SymbolTable.bound?_of_constant? constant) fun _ ↦ unsetHere
  rw [SymbolTable.constant?_eq_bound?, bound]
  rfl

/-- Where no name is set after a padding that it sizes, sizes are kept. -/
theorem sizesKept_of_unset {statements : List Statement}
    (unset : statements.Pairwise fun padding later ↦
      ∀ name, padding.sizedBy? = some name → later.assigned? ≠ some name)
    (laid : Layout.ofStatements limits statements = .ok layout) :
    SizesKept limits layout.symbols .empty statements := by
  refine sizesKept_of_unset_after laid ?_
  rintro before statement after reached name value rfl - sized - other member
  have rest := (List.pairwise_append.mp unset).2.1
  exact (List.pairwise_cons.mp rest).1 other member name sized

/-- Where no name is set anew, the final symbols extend those of every place, so sizes are kept. -/
theorem sizesKept_of_setsOnce {statements : List Statement} (once : SetsOnce statements)
    (laid : Layout.ofStatements limits statements = .ok layout) :
    SizesKept limits layout.symbols .empty statements := by
  rintro before statement after reached name value rfl walked - constant
  rw [Layout.ofStatements, List.foldlM_append] at laid
  obtain ⟨_, walked', laid⟩ := Selection.bind_eq_ok.mp laid
  cases walked.symm.trans walked'
  obtain ⟨-, free⟩ := Layout.extends_of_walk once (Layout.free_empty _) walked
  have rest : SetsOnce ((statement :: after) ++ []) := by
    rw [List.append_nil]
    exact (List.pairwise_append.mp once).2.1
  rw [← List.append_nil (statement :: after)] at free
  obtain ⟨more, -⟩ := Layout.extends_of_walk rest free laid
  exact more.constant? constant

end

end MiniA64
