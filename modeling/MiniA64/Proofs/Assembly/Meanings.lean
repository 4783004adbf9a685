import Mathlib.Data.List.Forall2
import MiniA64.Assembly.Data

/-!
# Operands of the same meaning

A name that is bound to a number as a constant and the number itself are one operand to every rule
that takes a value. So an instruction that is selected for some operands is selected too for other
ones that mean the same, wherever these stand. The target of a branch, where a name is an address
and a number a distance, and the option of a barrier have to stay as they are written.
-/

namespace MiniA64

/-! ## Answers that are alike -/

/-- Whatever the first step answers, the second one answers something like it. -/
def Alike {ε ε' α β : Type} (like : α → β → Prop) (first : Except ε α) (second : Except ε' β) :
    Prop :=
  ∀ answer, first = .ok answer → ∃ other, second = .ok other ∧ like answer other

namespace Alike

variable {ε ε' α β γ δ : Type} {like : α → β → Prop} {like' : γ → δ → Prop}

theorem ok {answer : α} {other : β} (same : like answer other) :
    Alike like (.ok answer : Except ε α) (.ok other : Except ε' β) := by
  rintro _ ⟨⟩
  exact ⟨other, rfl, same⟩

theorem refused {error : ε} {second : Except ε' β} : Alike like (.error error) second := nofun

theorem ite {condition : Prop} [Decidable condition] {first first' : Except ε α}
    {second second' : Except ε' β} (yes : condition → Alike like first second)
    (no : ¬condition → Alike like first' second') :
    Alike like (if condition then first else first') (if condition then second else second') := by
  split
  · exact yes ‹_›
  · exact no ‹_›

theorem bind {first : Except ε α} {second : Except ε' β} {next : α → Except ε γ}
    {next' : β → Except ε' δ} (begun : Alike like first second)
    (ended : ∀ answer other, like answer other → Alike like' (next answer) (next' other)) :
    Alike like' (first >>= next) (second >>= next') := by
  intro result done
  cases first with
  | error error => cases done
  | ok answer =>
    obtain ⟨other, rfl, same⟩ := begun answer rfl
    exact ended answer other same result done

/-- Steps over two lists side by side. -/
theorem foldlM {item : γ → δ → Prop} {items : List γ} {items' : List δ}
    {step : α → γ → Except ε α} {step' : β → δ → Except ε' β} {start : α} {start' : β}
    (same : List.Forall₂ item items items') (begun : like start start')
    (each : ∀ state state' next next', like state state' → item next next' →
      Alike like (step state next) (step' state' next')) :
    Alike like (items.foldlM step start) (items'.foldlM step' start') := by
  induction same generalizing start start' with
  | nil => exact .ok begun
  | cons first _ ih =>
    rw [List.foldlM_cons, List.foldlM_cons]
    exact (each _ _ _ _ begun first).bind fun _ _ here ↦ ih here

end Alike

/-! ## Symbols -/

/-- The symbol, wherever it stands. -/
inductive Symbol.Moved (symbol : Symbol) : Symbol → Prop
  | mk (location : Location) : Moved symbol { symbol with location }

/-- The same symbols in the same order, wherever they stand. -/
def SymbolTable.Moved (table table' : SymbolTable) : Prop :=
  List.Forall₂ Symbol.Moved table.entries table'.entries

namespace SymbolTable

variable {table table' : SymbolTable} {location location' : Location}

theorem Moved.find? (moved : table.Moved table') (name : String) :
    Option.Rel Symbol.Moved (table.find? name) (table'.find? name) := by
  obtain ⟨entries⟩ := table
  obtain ⟨entries'⟩ := table'
  unfold SymbolTable.find?
  induction (show List.Forall₂ Symbol.Moved entries entries' from moved) with
  | nil => exact .none
  | @cons entry _ rest rest' first others ih =>
    obtain ⟨location⟩ := first
    rw [List.find?_cons, List.find?_cons]
    dsimp only
    cases decide (entry.name = name) with
    | true => exact .some ⟨location⟩
    | false => exact ih others

theorem Moved.constant? (moved : table.Moved table') (name : String) :
    table'.constant? name = table.constant? name := by
  rw [SymbolTable.constant?, SymbolTable.constant?]
  generalize table.find? name = found, table'.find? name = found', moved.find? name = same
  obtain ⟨⟨location⟩⟩ | _ := same <;> rfl

theorem Moved.alike_resolve (moved : table.Moved table') (name : String) :
    Alike Eq (table.resolve name location) (table'.resolve name location') := by
  unfold resolve
  generalize table.find? name = found, table'.find? name = found', moved.find? name = same
  obtain @⟨symbol, _, ⟨place⟩⟩ | _ := same
  · cases defined : symbol.isDefined with
    | false =>
      simp only [Option.filter, defined]
      exact .refused
    | true =>
      simp only [Option.filter, defined]
      exact .ok rfl
  · exact .refused

theorem Moved.replace {symbol symbol' : Symbol} (moved : table.Moved table')
    (same : symbol.Moved symbol') : (table.replace symbol).Moved (table'.replace symbol') := by
  obtain ⟨place⟩ := same
  unfold SymbolTable.Moved SymbolTable.replace
  rw [List.forall₂_map_left_iff, List.forall₂_map_right_iff]
  refine moved.imp fun entry entry' ↦ ?_
  rintro ⟨location⟩
  dsimp only
  split
  · exact ⟨place⟩
  · exact ⟨location⟩

theorem Moved.alike_add {symbol symbol' : Symbol} (moved : table.Moved table')
    (same : symbol.Moved symbol') (limit : Int) :
    Alike Moved (table.add limit symbol) (table'.add limit symbol') := by
  unfold add
  rw [← List.Forall₂.length_eq moved]
  split
  · exact .refused
  · exact .ok (List.rel_append moved (.cons same .nil))

theorem Moved.alike_declare (moved : table.Moved table') (limit : Int) (name : String) :
    Alike Moved (table.declare limit name location) (table'.declare limit name location') := by
  unfold declare
  generalize table.find? name = found, table'.find? name = found', moved.find? name = same
  obtain ⟨⟨place⟩⟩ | _ := same
  · exact .ok (moved.replace ⟨place⟩)
  · exact moved.alike_add ⟨location'⟩ limit

theorem Moved.alike_define (moved : table.Moved table') (limit : Int) (name : String) (value : Int)
    (binding : Binding) :
    Alike Moved (table.define limit name value location binding)
      (table'.define limit name value location' binding) := by
  unfold define
  generalize table.find? name = found, table'.find? name = found', moved.find? name = same
  obtain @⟨symbol, _, ⟨place⟩⟩ | _ := same
  · have mayReplace : binding.mayReplace { symbol with location := place } =
        binding.mayReplace symbol := rfl
    dsimp only
    rw [mayReplace]
    split
    · exact .ok (moved.replace ⟨location'⟩)
    · exact .refused
  · exact moved.alike_add ⟨location'⟩ limit

end SymbolTable

/-- A bound constant has the value that its name resolves to. -/
theorem SymbolTable.resolve_of_constant? {table : SymbolTable} {name : String} {value : Int}
    (bound : table.constant? name = some value) (location : Location) :
    table.resolve name location = .ok value := by
  rw [constant?] at bound
  rw [resolve]
  cases found : table.find? name with
  | none =>
    rw [found] at bound
    cases bound
  | some symbol =>
    rw [found] at bound
    dsimp only at bound
    split at bound
    · rename_i both
      cases bound
      have defined := (Bool.and_eq_true_iff.mp both).1
      simp only [Option.filter, defined]
      rfl
    · cases bound

/-! ## Operands -/

/-- The operand, wherever it stands. -/
inductive Operand.Moved : Operand → Operand → Prop
  | mk (kind : OperandKind) {slot slot' : Nat} {location location' : Location} :
    Moved ⟨slot, location, kind⟩ ⟨slot', location', kind⟩

/-- The operand wherever it stands, or the number that it is bound to as a constant. -/
inductive Operand.Means (symbols : SymbolTable) : Operand → Operand → Prop
  | moved {operand operand' : Operand} (same : operand.Moved operand') :
    Means symbols operand operand'
  | value {name : String} {value : Int} (bound : symbols.constant? name = some value)
    {slot slot' : Nat} {location location' : Location} :
    Means symbols ⟨slot, location, .symbol name⟩ ⟨slot', location', .immediate value⟩

/-- The register, wherever it stands. -/
inductive RegisterOperand.Moved : RegisterOperand → RegisterOperand → Prop
  | mk (name : RegisterName) {location location' : Location} :
    Moved ⟨name, location⟩ ⟨name, location'⟩

/-- The shift, wherever it stands. -/
inductive ShiftOperand.Moved : ShiftOperand → ShiftOperand → Prop
  | mk (kind : ShiftKind) (amount : Int) {location location' : Location} :
    Moved ⟨kind, amount, location⟩ ⟨kind, amount, location'⟩

/-- The same symbols and address, wherever the statement stands. -/
structure Site.Moved (site site' : Site) : Prop where
  symbols : site.symbols.Moved site'.symbols
  address : site'.address = site.address

namespace Selection

variable {site site' : Site} {symbols : SymbolTable} {operand operand' : Operand}
  {operands operands' : List Operand} {location location' : Location} {width : Width}
  {register register' : RegisterOperand} {shift shift' : Option ShiftOperand}

/-! ## Registers -/

theorem rel_registerOf? (means : operand.Means symbols operand') :
    Option.Rel RegisterOperand.Moved (registerOf? operand) (registerOf? operand') := by
  obtain ⟨⟨kind⟩⟩ | _ := means
  · cases kind with
    | register name => exact .some ⟨name⟩
    | _ => exact .none
  · exact .none

theorem alike_register (means : operand.Means symbols operand') :
    Alike RegisterOperand.Moved (Selection.register operand) (Selection.register operand') := by
  unfold Selection.register
  generalize registerOf? operand = found, registerOf? operand' = found',
    rel_registerOf? means = same
  obtain moved | _ := same
  · exact .ok moved
  · exact .refused

theorem alike_asData (moved : register.Moved register') :
    Alike RegisterOperand.Moved (asData register) (asData register') := by
  obtain ⟨name⟩ := moved
  exact .ite (fun _ ↦ .refused) fun _ ↦ .ok ⟨name⟩

theorem alike_asStack (moved : register.Moved register') :
    Alike RegisterOperand.Moved (asStack register) (asStack register') := by
  obtain ⟨name⟩ := moved
  exact .ite (fun _ ↦ .refused) fun _ ↦ .ok ⟨name⟩

theorem alike_asRegisterForm (moved : register.Moved register') :
    Alike Eq (asRegisterForm register) (asRegisterForm register') := by
  obtain ⟨name⟩ := moved
  exact .ite (fun _ ↦ .refused) fun _ ↦ .ok rfl

theorem alike_dataRegister (means : operand.Means symbols operand') :
    Alike RegisterOperand.Moved (dataRegister operand) (dataRegister operand') :=
  (alike_register means).bind fun _ _ ↦ alike_asData

theorem alike_sameWidth {rest rest' : List RegisterOperand} (first : register.Moved register')
    (others : List.Forall₂ RegisterOperand.Moved rest rest') :
    Alike Eq (sameWidth site register rest) (sameWidth site' register' rest') := by
  obtain ⟨name⟩ := first
  have all : ∀ width : Width, (rest'.all fun register ↦ register.width = width) =
      rest.all fun register ↦ register.width = width := by
    intro width
    induction others with
    | nil => rfl
    | cons first _ ih =>
      obtain ⟨other⟩ := first
      rw [List.all_cons, List.all_cons, ih]
      rfl
  unfold sameWidth
  rw [all]
  exact .ite (fun _ ↦ .ok rfl) fun _ ↦ .refused

/-! ## Values and shifts -/

theorem alike_value (moved : site.Moved site') (means : operand.Means site.symbols operand')
    (what : Expected) : Alike Eq (value site operand what) (value site' operand' what) := by
  obtain ⟨⟨kind⟩⟩ | ⟨bound⟩ := means
  · cases kind with
    | immediate value => exact .ok rfl
    | symbol name => exact moved.symbols.alike_resolve name
    | _ => exact .refused
  · unfold value
    dsimp only
    rw [SymbolTable.resolve_of_constant? bound]
    exact .ok rfl

theorem isShift_eq (means : operand.Means symbols operand') :
    isShift operand' = isShift operand := by
  obtain ⟨⟨kind⟩⟩ | _ := means <;> rfl

theorem alike_shift? {modifier modifier' : Option Operand}
    (means : Option.Rel (Operand.Means symbols) modifier modifier') :
    Alike (Option.Rel ShiftOperand.Moved) (shift? modifier) (shift? modifier') := by
  obtain ⟨⟨⟨kind⟩⟩ | _⟩ | _ := means
  · cases kind with
    | shift kind amount => exact .ok (.some ⟨kind, amount⟩)
    | _ => exact .refused
  · exact .refused
  · exact .ok .none

theorem alike_shiftAmount (amount : Int) :
    Alike Eq (shiftAmount width location amount) (shiftAmount width location' amount) := by
  unfold shiftAmount
  split
  · exact .ok rfl
  · exact .refused

theorem alike_anyShift (moved : Option.Rel ShiftOperand.Moved shift shift') :
    Alike Eq (anyShift width shift) (anyShift width shift') := by
  obtain ⟨⟨kind, amount⟩⟩ | _ := moved
  · refine (alike_shiftAmount amount).bind ?_
    rintro index _ rfl
    exact .ok rfl
  · exact .ok rfl

theorem alike_linearShift (moved : Option.Rel ShiftOperand.Moved shift shift') :
    Alike Eq (linearShift width shift) (linearShift width shift') := by
  obtain ⟨⟨kind, amount⟩⟩ | _ := moved
  · unfold linearShift
    dsimp only
    split
    · exact .refused
    · refine (alike_shiftAmount amount).bind ?_
      rintro index _ rfl
      exact .ok rfl
  · exact .ok rfl

theorem alike_addSubRegister (op : AddSubOp) (setFlags : Bool) (rd rn rm : Reg)
    (moved : Option.Rel ShiftOperand.Moved shift shift') :
    Alike Eq (addSubRegister op setFlags width rd rn rm shift)
      (addSubRegister op setFlags width rd rn rm shift') := by
  refine (alike_linearShift moved).bind ?_
  rintro fields _ rfl
  exact .ok rfl

theorem alike_logicalRegister (name : LogicalName) (rd rn rm : Reg)
    (moved : Option.Rel ShiftOperand.Moved shift shift') :
    Alike Eq (logicalRegister name width rd rn rm shift)
      (logicalRegister name width rd rn rm shift') := by
  refine (alike_anyShift moved).bind ?_
  rintro fields _ rfl
  exact .ok rfl

theorem alike_arithmeticField (magnitude : Int)
    (moved : Option.Rel ShiftOperand.Moved shift shift') :
    Alike Eq (arithmeticField location magnitude shift)
      (arithmeticField location' magnitude shift') := by
  obtain ⟨⟨kind, amount⟩⟩ | _ := moved
  · exact .ite (fun _ ↦ .refused) fun _ ↦ .ite (fun _ ↦ .refused) fun _ ↦ .ok rfl
  · exact .ite (fun _ ↦ .ok rfl) fun _ ↦ .ite (fun _ ↦ .ok rfl) fun _ ↦ .refused

theorem alike_addSubImmediate (op : AddSubOp) (setFlags : Bool) (rd rn : Reg) (value : Int)
    (moved : Option.Rel ShiftOperand.Moved shift shift') :
    Alike Eq (addSubImmediate op setFlags width rd rn value shift location)
      (addSubImmediate op setFlags width rd rn value shift' location') := by
  unfold addSubImmediate
  split
  refine (alike_arithmeticField _ moved).bind ?_
  rintro fields _ rfl
  exact .ok rfl

/-! ## Arrangements -/

/-- Operands that mean the same, in the same places of an operation. -/
structure Arrangement.Means (symbols : SymbolTable) (arrangement arrangement' : Arrangement) :
    Prop where
  destination : arrangement.destination.Means symbols arrangement'.destination
  first : Option.Rel (Operand.Means symbols) arrangement.first arrangement'.first
  second : arrangement.second.Means symbols arrangement'.second
  shift : Option.Rel (Operand.Means symbols) arrangement.shift arrangement'.shift

theorem rel_arrange? (means : List.Forall₂ (Operand.Means symbols) operands operands') :
    Option.Rel (Arrangement.Means symbols) (arrange? operands) (arrange? operands') := by
  rcases means with _ | ⟨a, _ | ⟨b, _ | ⟨c, _ | ⟨d, _ | _⟩⟩⟩⟩
  case cons.cons.nil => exact .some ⟨a, .none, b, .none⟩
  case cons.cons.cons.nil =>
    unfold arrange?
    dsimp only
    rw [isShift_eq c]
    split
    · exact .some ⟨a, .none, b, .some c⟩
    · exact .some ⟨a, .some b, c, .none⟩
  case cons.cons.cons.cons.nil => exact .some ⟨a, .some b, c, .some d⟩
  all_goals exact .none

theorem alike_firstSource {arrangement arrangement' : Arrangement}
    {read : Operand → Selected RegisterOperand} (means : arrangement.Means symbols arrangement')
    (moved : register.Moved register')
    (alike : ∀ operand operand' : Operand, operand.Means symbols operand' →
      Alike RegisterOperand.Moved (read operand) (read operand')) :
    Alike RegisterOperand.Moved (firstSource arrangement register read)
      (firstSource arrangement' register' read) := by
  unfold firstSource
  generalize arrangement.first = found, arrangement'.first = found', means.first = same
  obtain first | _ := same
  · exact alike _ _ first
  · exact .ok moved

/-- Two operands, with a modifier that may be left out. -/
def MeanAll (symbols : SymbolTable) (operands operands' : Operand × Operand × Option Operand) :
    Prop :=
  operands.1.Means symbols operands'.1 ∧ operands.2.1.Means symbols operands'.2.1 ∧
    Option.Rel (Operand.Means symbols) operands.2.2 operands'.2.2

theorem rel_comparands? (means : List.Forall₂ (Operand.Means symbols) operands operands') :
    Option.Rel (MeanAll symbols) (comparands? operands) (comparands? operands') := by
  rcases means with _ | ⟨a, _ | ⟨b, _ | ⟨c, _ | _⟩⟩⟩
  case cons.cons.nil => exact .some ⟨a, b, .none⟩
  case cons.cons.cons.nil => exact .some ⟨a, b, .some c⟩
  all_goals exact .none

/-! ## Instructions -/

section

variable (moved : site.Moved site')
  (means : List.Forall₂ (Operand.Means site.symbols) operands operands')

include moved means

theorem alike_addSub (op : AddSubOp) (setFlags : Bool) :
    Alike Eq (addSub site op setFlags operands) (addSub site' op setFlags operands') := by
  unfold addSub
  generalize arrange? operands = found, arrange? operands' = found', rel_arrange? means = same
  obtain @⟨arrangement, arrangement', means⟩ | _ := same
  case none => exact .refused
  refine (alike_register means.destination).bind fun rd rd' movedD ↦ ?_
  refine (alike_firstSource means movedD fun _ _ ↦ alike_register).bind fun rn rn' movedN ↦ ?_
  refine (alike_shift? means.shift).bind fun shift shift' movedS ↦ ?_
  have found := rel_registerOf? means.second
  generalize registerOf? arrangement.second = second, registerOf? arrangement'.second = second'
    at found
  obtain @⟨rm, rm', movedM⟩ | _ := found
  · refine (alike_asRegisterForm movedD).bind fun _ _ _ ↦ ?_
    refine (alike_asRegisterForm movedN).bind fun _ _ _ ↦ ?_
    refine (alike_asRegisterForm movedM).bind fun _ _ _ ↦ ?_
    refine (alike_sameWidth movedD (.cons movedN (.cons movedM .nil))).bind ?_
    rintro width _ rfl
    obtain ⟨d⟩ := movedD
    obtain ⟨n⟩ := movedN
    obtain ⟨m⟩ := movedM
    exact alike_addSubRegister op setFlags _ _ _ movedS
  · refine (alike_asStack movedN).bind fun rn rn' movedN ↦ ?_
    refine .ite (fun _ ↦ (alike_asData movedD).bind ?_) fun _ ↦ (alike_asStack movedD).bind ?_
    all_goals
      intro rd rd' movedD
      refine (alike_sameWidth movedD (.cons movedN .nil)).bind ?_
      rintro width _ rfl
      refine (alike_value moved means.second _).bind ?_
      rintro value _ rfl
      obtain ⟨d⟩ := movedD
      obtain ⟨n⟩ := movedN
      exact alike_addSubImmediate op setFlags _ _ value movedS

theorem alike_compare (op : AddSubOp) :
    Alike Eq (compare site op operands) (compare site' op operands') := by
  unfold Selection.compare
  generalize comparands? operands = found, comparands? operands' = found', rel_comparands? means =
    same
  obtain @⟨⟨left, right, modifier⟩, ⟨left', right', modifier'⟩, meanL, meanR, meanM⟩ | _ := same
  case none => exact .refused
  refine (alike_register meanL).bind fun rn rn' movedN ↦ ?_
  refine (alike_shift? meanM).bind fun shift shift' movedS ↦ ?_
  have found := rel_registerOf? meanR
  generalize registerOf? right = second, registerOf? right' = second' at found
  obtain @⟨rm, rm', movedM⟩ | _ := found
  · refine (alike_asData movedN).bind fun rn rn' movedN ↦ ?_
    refine (alike_asData movedM).bind fun rm rm' movedM ↦ ?_
    refine (alike_sameWidth movedN (.cons movedM .nil)).bind ?_
    rintro width _ rfl
    obtain ⟨n⟩ := movedN
    obtain ⟨m⟩ := movedM
    exact alike_addSubRegister op true _ _ _ movedS
  · refine (alike_asStack movedN).bind fun rn rn' movedN ↦ ?_
    refine (alike_value moved meanR _).bind ?_
    rintro value _ rfl
    obtain ⟨n⟩ := movedN
    exact alike_addSubImmediate op true _ _ value movedS

omit moved in
theorem alike_test : Alike Eq (test site operands) (test site' operands') := by
  unfold test
  generalize comparands? operands = found, comparands? operands' = found', rel_comparands? means =
    same
  obtain @⟨⟨left, right, modifier⟩, ⟨left', right', modifier'⟩, meanL, meanR, meanM⟩ | _ := same
  case none => exact .refused
  refine (alike_register meanL).bind fun rn rn' movedN ↦ ?_
  refine (alike_shift? meanM).bind fun shift shift' movedS ↦ ?_
  refine (alike_asData movedN).bind fun rn rn' movedN ↦ ?_
  refine (alike_dataRegister meanR).bind fun rm rm' movedM ↦ ?_
  refine (alike_sameWidth movedN (.cons movedM .nil)).bind ?_
  rintro width _ rfl
  obtain ⟨n⟩ := movedN
  obtain ⟨m⟩ := movedM
  exact alike_logicalRegister .ands _ _ _ movedS

omit moved in
theorem alike_logical (name : LogicalName) :
    Alike Eq (logical site name operands) (logical site' name operands') := by
  unfold logical
  generalize arrange? operands = found, arrange? operands' = found', rel_arrange? means = same
  obtain @⟨arrangement, arrangement', means⟩ | _ := same
  case none => exact .refused
  refine (alike_dataRegister means.destination).bind fun rd rd' movedD ↦ ?_
  refine (alike_firstSource means movedD fun _ _ ↦ alike_dataRegister).bind fun rn rn' movedN ↦ ?_
  have found := rel_registerOf? means.second
  generalize registerOf? arrangement.second = second, registerOf? arrangement'.second = second'
    at found
  obtain @⟨rm, rm', movedM⟩ | _ := found
  · refine (alike_asData movedM).bind fun rm rm' movedM ↦ ?_
    refine (alike_sameWidth movedD (.cons movedN (.cons movedM .nil))).bind ?_
    rintro width _ rfl
    refine (alike_shift? means.shift).bind fun shift shift' movedS ↦ ?_
    obtain ⟨d⟩ := movedD
    obtain ⟨n⟩ := movedN
    obtain ⟨m⟩ := movedM
    exact alike_logicalRegister name _ _ _ movedS
  · exact .refused

omit moved in
theorem alike_unary {select : Width → Reg → Reg → Option ShiftOperand → Selected Instruction}
    (alike : ∀ width rd rm shift shift', Option.Rel ShiftOperand.Moved shift shift' →
      Alike Eq (select width rd rm shift) (select width rd rm shift')) :
    Alike Eq (unary site operands select) (unary site' operands' select) := by
  unfold unary
  generalize comparands? operands = found, comparands? operands' = found', rel_comparands? means =
    same
  obtain @⟨⟨target, source, modifier⟩, ⟨target', source', modifier'⟩, meanD, meanS, meanM⟩ | _ :=
    same
  case none => exact .refused
  refine (alike_dataRegister meanD).bind fun rd rd' movedD ↦ ?_
  refine (alike_dataRegister meanS).bind fun rm rm' movedM ↦ ?_
  refine (alike_sameWidth movedD (.cons movedM .nil)).bind ?_
  rintro width _ rfl
  refine (alike_shift? meanM).bind fun shift shift' movedS ↦ ?_
  obtain ⟨d⟩ := movedD
  obtain ⟨m⟩ := movedM
  exact alike _ _ _ _ _ movedS

omit moved in
theorem alike_negate : Alike Eq (negate site operands) (negate site' operands') :=
  alike_unary means fun _ rd rm _ _ ↦ alike_addSubRegister .sub false rd Reg.special rm

omit moved in
theorem alike_invert : Alike Eq (invert site operands) (invert site' operands') :=
  alike_unary means fun _ rd rm _ _ ↦ alike_logicalRegister .orn rd Reg.special rm

omit moved in
/-- The sources of an operation with two or three operands. -/
theorem rel_binary? : Option.Rel
    (fun (parts parts' : Operand × Option Operand × Operand) ↦
      parts.1.Means site.symbols parts'.1 ∧
        Option.Rel (Operand.Means site.symbols) parts.2.1 parts'.2.1 ∧
        parts.2.2.Means site.symbols parts'.2.2)
    (binary? operands) (binary? operands') := by
  rcases means with _ | ⟨a, _ | ⟨b, _ | ⟨c, _ | _⟩⟩⟩
  case cons.cons.nil => exact .some ⟨a, .none, b⟩
  case cons.cons.cons.nil => exact .some ⟨a, .some b, c⟩
  all_goals exact .none

omit means moved in
/-- An operation goes on alike with its first source, which is its destination if it is left out. -/
theorem alike_source {source source' : Option Operand} {α : Type} {like : α → α → Prop}
    {next next' : RegisterOperand → Selected α} (moved : register.Moved register')
    (means : Option.Rel (Operand.Means symbols) source source')
    (ended : ∀ first first' : RegisterOperand, first.Moved first' →
      Alike like (next first) (next' first')) :
    Alike like
      (match source with
        | none => .ok register >>= next
        | some operand => dataRegister operand >>= next)
      (match source' with
        | none => .ok register' >>= next'
        | some operand => dataRegister operand >>= next') := by
  obtain means | _ := means
  · exact (alike_dataRegister means).bind ended
  · exact (Alike.ok moved).bind ended

theorem alike_shift (kind : ShiftKind) :
    Alike Eq (Selection.shift site kind operands) (Selection.shift site' kind operands') := by
  unfold Selection.shift
  generalize binary? operands = found, binary? operands' = found', rel_binary? means = same
  obtain @⟨⟨target, first, second⟩, ⟨target', first', second'⟩, meanD, meanN, meanM⟩ | _ := same
  case none => exact .refused
  refine (alike_dataRegister meanD).bind fun rd rd' movedD ↦ ?_
  refine alike_source movedD meanN fun rn rn' movedN ↦ ?_
  have found := rel_registerOf? meanM
  generalize registerOf? second = last, registerOf? second' = last' at found
  obtain @⟨rm, rm', movedM⟩ | _ := found
  · refine (alike_asData movedM).bind fun rm rm' movedM ↦ ?_
    refine (alike_sameWidth movedD (.cons movedN (.cons movedM .nil))).bind ?_
    rintro width _ rfl
    obtain ⟨d⟩ := movedD
    obtain ⟨n⟩ := movedN
    obtain ⟨m⟩ := movedM
    exact .ok rfl
  · refine (alike_sameWidth movedD (.cons movedN .nil)).bind ?_
    rintro width _ rfl
    refine (alike_value moved meanM _).bind ?_
    rintro value _ rfl
    refine (alike_shiftAmount value).bind ?_
    rintro amount _ rfl
    obtain ⟨d⟩ := movedD
    obtain ⟨n⟩ := movedN
    exact .ok rfl

omit moved in
theorem alike_binary (select : Width → Reg → Reg → Reg → Instruction) :
    Alike Eq (binary site operands select) (binary site' operands' select) := by
  unfold binary
  generalize binary? operands = found, binary? operands' = found', rel_binary? means = same
  obtain @⟨⟨target, first, second⟩, ⟨target', first', second'⟩, meanD, meanN, meanM⟩ | _ := same
  case none => exact .refused
  refine (alike_dataRegister meanD).bind fun rd rd' movedD ↦ ?_
  refine alike_source movedD meanN fun rn rn' movedN ↦ ?_
  refine (alike_dataRegister meanM).bind fun rm rm' movedM ↦ ?_
  refine (alike_sameWidth movedD (.cons movedN (.cons movedM .nil))).bind ?_
  rintro width _ rfl
  obtain ⟨d⟩ := movedD
  obtain ⟨n⟩ := movedN
  obtain ⟨m⟩ := movedM
  exact .ok rfl

omit means moved in
theorem alike_moveRegister {rd rd' rm rm' : RegisterOperand} (movedD : rd.Moved rd')
    (movedM : rm.Moved rm') :
    Alike Eq (moveRegister site rd rm) (moveRegister site' rd' rm') := by
  refine (alike_sameWidth movedD (.cons movedM .nil)).bind ?_
  rintro width _ rfl
  obtain ⟨d⟩ := movedD
  obtain ⟨m⟩ := movedM
  refine .ite (fun _ ↦ ?_) fun _ ↦ .ok rfl
  refine (alike_asStack ⟨d⟩).bind fun rd rd' movedD ↦ ?_
  refine (alike_asStack ⟨m⟩).bind fun rm rm' movedM ↦ ?_
  obtain ⟨d⟩ := movedD
  obtain ⟨m⟩ := movedM
  exact .ok rfl

theorem alike_move : Alike Eq (move site operands) (move site' operands') := by
  rcases means with _ | @⟨target, target', _, _, meanD, _ | @⟨source, source', _, _, meanM, _ | _⟩⟩
  case cons.cons.nil =>
    refine (alike_register meanD).bind fun rd rd' movedD ↦ ?_
    have found := rel_registerOf? meanM
    generalize registerOf? source = second, registerOf? source' = second' at found
    obtain movedM | _ := found
    · exact alike_moveRegister movedD movedM
    · obtain ⟨d⟩ := movedD
      refine .ite (fun _ ↦ .refused) fun _ ↦ ?_
      refine (alike_value moved meanM _).bind ?_
      rintro value _ rfl
      dsimp only [RegisterOperand.width, RegisterOperand.number]
      cases moveImmediate d.width d.number value with
      | error error => exact .refused
      | ok instruction => exact .ok rfl
  all_goals exact .refused

omit means moved in
theorem alike_window (moved : Option.Rel ShiftOperand.Moved shift shift') :
    Alike Eq (window width shift) (window width shift') := by
  obtain ⟨⟨kind, amount⟩⟩ | _ := moved
  · unfold window
    dsimp only
    split
    · exact .ok rfl
    · exact .refused
  · exact .ok rfl

theorem alike_moveWide (op : MoveWideOp) :
    Alike Eq (moveWide site op operands) (moveWide site' op operands') := by
  unfold moveWide
  generalize comparands? operands = found, comparands? operands' = found', rel_comparands? means =
    same
  obtain @⟨⟨target, source, modifier⟩, ⟨target', source', modifier'⟩, meanD, meanV, meanM⟩ | _ :=
    same
  case none => exact .refused
  refine (alike_dataRegister meanD).bind fun rd rd' movedD ↦ ?_
  refine (alike_value moved meanV _).bind ?_
  rintro value _ rfl
  refine .ite (fun _ ↦ .refused) fun _ ↦ ?_
  refine (alike_shift? meanM).bind fun shift shift' movedS ↦ ?_
  obtain ⟨d⟩ := movedD
  refine (alike_window movedS).bind ?_
  rintro place _ rfl
  exact .ok rfl

omit means moved in
theorem alike_byteOffset (offset : Int) (slot : ImmediateSlot) :
    Alike Eq (byteOffset location offset slot) (byteOffset location' offset slot) :=
  .ite (fun _ ↦ .refused) fun _ ↦ .ok rfl

omit moved in
theorem alike_unscaledTransfer (name : TransferName) :
    Alike Eq (unscaledTransfer site name operands) (unscaledTransfer site' name operands') := by
  rcases means with _ | ⟨meanD, _ | ⟨meanT, _ | _⟩⟩
  case cons.cons.nil =>
    refine (alike_dataRegister meanD).bind fun rt rt' movedT ↦ ?_
    obtain ⟨t⟩ := movedT
    dsimp only [RegisterOperand.width]
    split
    · exact .refused
    obtain ⟨⟨kind⟩⟩ | _ := meanT
    · dsimp only
      split
      · refine (alike_byteOffset _ _).bind ?_
        rintro field _ rfl
        exact .ok rfl
      · exact .refused
    · exact .refused
  all_goals exact .refused

omit means moved in
theorem alike_pairOffset (offset : Int) :
    Alike Eq (pairOffset width location offset) (pairOffset width location' offset) :=
  .ite (fun _ ↦ .refused) fun _ ↦ .ite (fun _ ↦ .refused) fun _ ↦ .ok rfl

omit moved in
theorem alike_pair (load : Bool) :
    Alike Eq (pair site load operands) (pair site' load operands') := by
  rcases means with _ | ⟨meanF, _ | ⟨meanS, _ | ⟨meanT, _ | _⟩⟩⟩
  case cons.cons.cons.nil =>
    refine (alike_dataRegister meanF).bind fun rt rt' movedF ↦ ?_
    refine (alike_dataRegister meanS).bind fun rt2 rt2' movedS ↦ ?_
    refine (alike_sameWidth movedF (.cons movedS .nil)).bind ?_
    rintro width _ rfl
    obtain ⟨first⟩ := movedF
    obtain ⟨second⟩ := movedS
    obtain ⟨⟨kind⟩⟩ | _ := meanT
    · dsimp only [pairTarget?]
      split
      · exact .refused
      · refine (alike_pairOffset _).bind ?_
        rintro field _ rfl
        exact .ok rfl
    · exact .refused
  all_goals exact .refused

omit moved in
theorem alike_branchRegister (op : BranchRegisterOp) :
    Alike Eq (branchRegister site op operands) (branchRegister site' op operands') := by
  have single {op : BranchRegisterOp} {target target' : Operand}
      (means : target.Means site.symbols target') :
      Alike Eq (do return .branchRegister op (← dataRegister target).number : Selected Instruction)
        (do return .branchRegister op (← dataRegister target').number : Selected Instruction) := by
    refine (alike_dataRegister means).bind fun rn rn' movedN ↦ ?_
    obtain ⟨n⟩ := movedN
    exact .ok rfl
  rcases means with _ | ⟨meanT, _ | _⟩ <;> cases op
  case nil.ret => exact .ok rfl
  case cons.nil.br | cons.nil.blr | cons.nil.ret => exact single meanT
  all_goals exact .refused

omit moved in
theorem alike_hint (kind : Hint) :
    Alike Eq (hint site kind operands) (hint site' kind operands') := by
  obtain _ | _ := means
  · exact .ok rfl
  · exact .refused

theorem alike_exception (op : ExceptionOp) :
    Alike Eq (exception site op operands) (exception site' op operands') := by
  rcases means with _ | ⟨meanN, _ | _⟩
  case cons.nil =>
    refine (alike_value moved meanN _).bind ?_
    rintro value _ rfl
    exact .ite (fun _ ↦ .refused) fun _ ↦ .ok rfl
  all_goals exact .refused

omit moved in
theorem alike_service (kind : Service) :
    Alike Eq (service site kind operands) (service site' kind operands') := by
  obtain _ | _ := means
  · exact .ok rfl
  · exact .refused

end

/-! ## Targets and options -/

section

variable (moved : site.Moved site')

include moved

theorem alike_branchOffset (bits : Nat) (same : operand.Moved operand') :
    Alike Eq (branchOffset site bits operand) (branchOffset site' bits operand') := by
  obtain ⟨kind⟩ := same
  cases kind with
  | symbol name =>
    refine (moved.symbols.alike_resolve name).bind ?_
    rintro address _ rfl
    rw [moved.address]
    exact .ite (fun _ ↦ .refused) fun _ ↦ .ite (fun _ ↦ .refused) fun _ ↦ .ok rfl
  | immediate offset =>
    exact .ite (fun _ ↦ .refused) fun _ ↦ .ite (fun _ ↦ .refused) fun _ ↦ .ok rfl
  | _ => exact .refused

variable (same : List.Forall₂ Operand.Moved operands operands')

include same

theorem alike_branch (link : Bool) :
    Alike Eq (branch site link operands) (branch site' link operands') := by
  rcases same with _ | ⟨target, _ | _⟩
  case cons.nil =>
    refine (alike_branchOffset moved 26 target).bind ?_
    rintro offset _ rfl
    exact .ok rfl
  all_goals exact .refused

theorem alike_branchIf (condition : Condition) :
    Alike Eq (branchIf site condition operands) (branchIf site' condition operands') := by
  rcases same with _ | ⟨target, _ | _⟩
  case cons.nil =>
    refine (alike_branchOffset moved 19 target).bind ?_
    rintro offset _ rfl
    exact .ok rfl
  all_goals exact .refused

theorem alike_compareBranch (nonzero : Bool) :
    Alike Eq (compareBranch site nonzero operands) (compareBranch site' nonzero operands') := by
  rcases same with _ | ⟨tested, _ | ⟨target, _ | _⟩⟩
  case cons.cons.nil =>
    have means : Operand.Means site.symbols _ _ := .moved tested
    refine (alike_dataRegister means).bind fun rt rt' movedT ↦ ?_
    refine (alike_branchOffset moved 19 target).bind ?_
    rintro offset _ rfl
    obtain ⟨t⟩ := movedT
    exact .ok rfl
  all_goals exact .refused

omit moved same in
theorem alike_addressing (name : TransferName) (transfer : Transfer) (form : MemoryForm) :
    Alike Eq (addressing name transfer location form)
      (addressing name transfer location' form) := by
  have scaled (offset : Int) : Alike Eq (scaledOffset name transfer location offset)
      (scaledOffset name transfer location' offset) :=
    .ite (fun _ ↦ .refused) fun _ ↦ .ite (fun _ ↦ .refused) fun _ ↦ .ok rfl
  cases form with
  | index rm => exact .ok rfl
  | preIndex offset | postIndex offset =>
    refine (alike_byteOffset offset _).bind ?_
    rintro field _ rfl
    exact .ok rfl
  | offset offset =>
    refine (scaled offset).bind ?_
    rintro field _ rfl
    exact .ok rfl

/-- A load or a store, the target of which is in memory or beside the code. -/
theorem alike_transfer (name : TransferName) :
    Alike Eq (transfer site name operands) (transfer site' name operands') := by
  rcases same with _ | ⟨data, _ | ⟨target, _ | _⟩⟩
  case cons.cons.nil =>
    have means : Operand.Means site.symbols _ _ := .moved data
    refine (alike_dataRegister means).bind fun rt rt' movedT ↦ ?_
    obtain ⟨t⟩ := movedT
    obtain ⟨kind⟩ := target
    dsimp only [RegisterOperand.width]
    cases name.transfer? t.width with
    | none => exact .refused
    | some transfer =>
      cases kind with
      | memory operand =>
        refine (alike_addressing name transfer operand.form).bind ?_
        rintro address _ rfl
        exact .ok rfl
      | _ =>
        dsimp only
        cases literalLoad? name t.width with
        | none => exact .refused
        | some load =>
          refine (alike_branchOffset moved 19 ⟨_⟩).bind ?_
          rintro offset _ rfl
          exact .ok rfl
  all_goals exact .refused

omit moved in
theorem alike_barrier (kind : Barrier) :
    Alike Eq (barrier site kind operands) (barrier site' kind operands') := by
  rcases same with _ | ⟨option, _ | _⟩
  case nil => exact .ok rfl
  case cons.nil =>
    obtain ⟨kind⟩ := option
    have known {slot slot' : Nat} {location location' : Location} :
        Alike Eq (barrierOption ⟨slot, location, kind⟩)
          (barrierOption ⟨slot', location', kind⟩) := by
      unfold barrierOption
      cases kind with
      | symbol name =>
        dsimp only
        cases Barrier.options.lookup (Text.lower name) with
        | none => exact .refused
        | some option => exact .ok rfl
      | immediate value => exact .ite (fun _ ↦ .ok rfl) fun _ ↦ .refused
      | _ => exact .refused
    refine known.bind ?_
    rintro option _ rfl
    exact .ok rfl
  case cons.cons => exact .refused

end

end Selection

/-! ## Mnemonics -/

/--
The mnemonics whose operands are values wherever they are symbols. To the others a symbol is the
target of a branch or of a load, or an option.
-/
def Mnemonic.takesValues : Mnemonic → Bool
  | branch _ | branchIf _ | compareBranch _ | transfer _ | barrier _ => false
  | _ => true

/-- One instruction is selected for operands that mean the same. -/
theorem Mnemonic.alike_select {site site' : Site} {operands operands' : List Operand}
    (mnemonic : Mnemonic) (moved : site.Moved site')
    (means : List.Forall₂
      (if mnemonic.takesValues then Operand.Means site.symbols else Operand.Moved)
      operands operands') :
    Alike Eq (mnemonic.select site operands) (mnemonic.select site' operands') := by
  cases mnemonic with
  | addSub op setFlags => exact Selection.alike_addSub moved means op setFlags
  | compare op => exact Selection.alike_compare moved means op
  | test => exact Selection.alike_test means
  | logical name => exact Selection.alike_logical means name
  | negate => exact Selection.alike_negate means
  | invert => exact Selection.alike_invert means
  | shift kind => exact Selection.alike_shift moved means kind
  | divide signed => exact Selection.alike_binary means _
  | multiply =>
    exact Selection.alike_binary means fun width rm ↦ .multiplyAdd width false rm Reg.special
  | move => exact Selection.alike_move moved means
  | moveWide op => exact Selection.alike_moveWide moved means op
  | transfer name => exact Selection.alike_transfer moved means name
  | unscaledTransfer name => exact Selection.alike_unscaledTransfer means name
  | pair load => exact Selection.alike_pair means load
  | branch link => exact Selection.alike_branch moved means link
  | branchIf condition => exact Selection.alike_branchIf moved means condition
  | compareBranch nonzero => exact Selection.alike_compareBranch moved means nonzero
  | branchRegister op => exact Selection.alike_branchRegister means op
  | hint kind => exact Selection.alike_hint means kind
  | barrier kind => exact Selection.alike_barrier means kind
  | exception op => exact Selection.alike_exception moved means op
  | service kind => exact Selection.alike_service means kind

end MiniA64
