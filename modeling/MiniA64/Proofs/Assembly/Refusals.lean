import MiniA64.Proofs.Assembly.Checks
import MiniA64.Proofs.Assembly.Derivations

/-!
# Where instructions are refused

An instruction that is refused is refused where its statement or one of its operands stands, and
so is a name that has no value or no room. A number in the message is one that an operand gives, or
its negation. That is proved for every mnemonic along the order in which its operands are looked at.
-/

namespace MiniA64

/-- An answer is good, or it is refused for a reason. -/
def Answered {ε α : Type} (refused : ε → Prop) (good : α → Prop) : Except ε α → Prop
  | .ok answer => good answer
  | .error error => refused error

/-- Where something may be refused, and with which numbers in the message. -/
structure Footing where
  placed : Location → Prop
  stated : Int → Prop
  neg : ∀ number, stated number → stated (-number)

namespace Footing

/-- Places where any number may be stated. -/
abbrev within (placed : Location → Prop) : Footing := ⟨placed, fun _ ↦ True, fun _ _ ↦ trivial⟩

def Refuses (footing : Footing) (diagnostic : Diagnostic) : Prop :=
  ∃ error location, footing.placed location ∧
    (∀ number ∈ AssemblyError.numbers error, footing.stated number) ∧
    diagnostic = AssemblyError.locatedAt location error

theorem Refuses.placed {footing : Footing} {diagnostic : Diagnostic}
    (refuses : footing.Refuses diagnostic) : diagnostic.Placed footing.placed := by
  obtain ⟨error, location, here, -, same⟩ := refuses
  exact ⟨error, location, here, same⟩

theorem Refuses.stated {footing : Footing} {diagnostic : Diagnostic}
    (refuses : footing.Refuses diagnostic) :
    ∀ number ∈ diagnostic.error.numbers, footing.stated number := by
  obtain ⟨error, location, -, stated, rfl⟩ := refuses
  exact stated

end Footing

/-- An answer is good, or it is refused on a footing. -/
abbrev AnsweredOn (footing : Footing) {α : Type} (good : α → Prop) :
    Except Diagnostic α → Prop :=
  Answered footing.Refuses good

/-- An answer is good, or it is refused at a place. -/
abbrev AnsweredAt (placed : Location → Prop) {α : Type} (good : α → Prop) :
    Except Diagnostic α → Prop :=
  AnsweredOn (.within placed) good

section

variable {ε α β : Type} {refused : ε → Prop} {good : α → Prop}

theorem Answered.bind {first : Except ε α} {second : α → Except ε β} {good' : β → Prop}
    (begun : Answered refused good first)
    (ended : ∀ answer, good answer → Answered refused good' (second answer)) :
    Answered refused good' (first >>= second) := by
  cases first with
  | error error => exact begun
  | ok answer => exact ended answer begun

theorem Answered.mono {answer : Except ε α} {good' : α → Prop}
    (answered : Answered refused good answer) (implies : ∀ result, good result → good' result) :
    Answered refused good' answer := by
  cases answer with
  | error error => exact answered
  | ok result => exact implies result answered

/-- All answers that come one after another. -/
theorem Answered.foldlM {step : β → α → Except ε β} {items : List α} (start : β)
    (keeps : ∀ item ∈ items, ∀ state, Answered refused (fun _ ↦ True) (step state item)) :
    Answered refused (fun _ ↦ True) (items.foldlM step start) := by
  induction items generalizing start with
  | nil => trivial
  | cons item rest ih =>
    rw [List.foldlM_cons]
    refine (keeps item List.mem_cons_self start).bind fun state _ ↦ ih state ?_
    exact fun other member ↦ keeps other (List.mem_cons_of_mem _ member)

theorem AnsweredOn.locatedAt {footing : Footing} {location : Location}
    (here : footing.placed location) {error : AssemblyError}
    (stated : ∀ number ∈ error.numbers, footing.stated number) :
    AnsweredOn footing good (.error (error.locatedAt location)) :=
  ⟨error, location, here, stated, rfl⟩

theorem AnsweredAt.locatedAt {placed : Location → Prop} {location : Location}
    (here : placed location) (error : AssemblyError) :
    AnsweredAt placed good (.error (error.locatedAt location)) :=
  AnsweredOn.locatedAt here fun _ _ ↦ trivial

end

/-! ## Symbols -/

namespace SymbolTable

variable {placed : Location → Prop} {location : Location} (table : SymbolTable)

theorem answered_resolve {footing : Footing} (here : footing.placed location) (name : String) :
    AnsweredOn footing (fun value ↦ table.value? name = some value)
      (table.resolve name location) := by
  unfold resolve
  split
  · rename_i symbol found
    exact congrArg (Option.map Symbol.value) found
  · exact AnsweredOn.locatedAt here (List.forall_mem_nil _)

theorem answered_add {symbol : Symbol} (here : placed symbol.location) (limit : Int) :
    AnsweredAt placed (fun _ ↦ True) (table.add limit symbol) := by
  unfold add
  split
  · exact AnsweredAt.locatedAt here _
  · trivial

theorem answered_define (here : placed location) (limit : Int) (name : String) (value : Int)
    (binding : Binding) :
    AnsweredAt placed (fun _ ↦ True) (table.define limit name value location binding) := by
  unfold define
  split
  · split
    · trivial
    · exact AnsweredAt.locatedAt here _
  · exact table.answered_add here limit

theorem answered_declare (here : placed location) (limit : Int) (name : String) :
    AnsweredAt placed (fun _ ↦ True) (table.declare limit name location) := by
  unfold declare
  split
  · trivial
  · exact table.answered_add here limit

end SymbolTable

/-! ## Instructions -/

def MemoryForm.numbers : MemoryForm → List Int
  | .offset bytes => [bytes]
  | .preIndex bytes => [bytes]
  | .postIndex bytes => [bytes]
  | .index _ => []

/-- The numbers that an operand gives to an instruction at a site: its own one, or the value of its
symbol and the way there. -/
def Operand.numbers (site : Site) (operand : Operand) : List Int :=
  match operand.kind with
  | .immediate value => [value]
  | .symbol name =>
    match site.symbols.value? name with
    | some value => [value, value - site.address]
    | none => []
  | .shift _ amount => [amount]
  | .memory memory => memory.form.numbers
  | _ => []

/-- An operand where it may be refused, with numbers that may be stated. -/
structure Footing.Holds (footing : Footing) (site : Site) (operand : Operand) : Prop where
  placed : footing.placed operand.location
  stated : ∀ number ∈ operand.numbers site, footing.stated number

structure Footing.Shifts (footing : Footing) (shift : ShiftOperand) : Prop where
  placed : footing.placed shift.location
  stated : footing.stated shift.amount

namespace Selection

variable {footing : Footing} {α : Type} {good : α → Prop} {location : Location}
  {site : Site} {operand : Operand} {operands : List Operand} {width : Width}

theorem answered_refuse (here : footing.placed location) (error : OperandError) :
    AnsweredOn footing good (refuse location error) :=
  AnsweredOn.locatedAt here (List.forall_mem_nil _)

theorem answered_outOfRange (here : footing.placed location) {value : Int}
    (stated : footing.stated value) (slot : ImmediateSlot) :
    AnsweredOn footing good (outOfRange location value slot) :=
  AnsweredOn.locatedAt here (List.forall_mem_singleton.mpr stated)

/-- The register of an operand stands where the operand stands. -/
theorem location_of_registerOf? {found : RegisterOperand} (h : registerOf? operand = some found) :
    found.location = operand.location := by
  unfold registerOf? at h
  split at h
  · cases h
    rfl
  · cases h

theorem answered_register (here : footing.placed operand.location) :
    AnsweredOn footing (fun found ↦ footing.placed found.location) (register operand) := by
  unfold register
  split
  · rename_i found same
    exact (congrArg footing.placed (location_of_registerOf? same)).mpr here
  · exact answered_refuse here _

theorem answered_asData {found : RegisterOperand} (here : footing.placed found.location) :
    AnsweredOn footing (fun found ↦ footing.placed found.location) (asData found) := by
  unfold asData
  split
  · exact answered_refuse here _
  · exact here

theorem answered_asStack {found : RegisterOperand} (here : footing.placed found.location) :
    AnsweredOn footing (fun found ↦ footing.placed found.location) (asStack found) := by
  unfold asStack
  split
  · exact answered_refuse here _
  · exact here

theorem answered_asRegisterForm {found : RegisterOperand} (here : footing.placed found.location) :
    AnsweredOn footing (fun _ ↦ True) (asRegisterForm found) := by
  unfold asRegisterForm
  split
  · exact answered_refuse here _
  · trivial

theorem answered_dataRegister (here : footing.placed operand.location) :
    AnsweredOn footing (fun found ↦ footing.placed found.location) (dataRegister operand) :=
  (answered_register here).bind fun _ ↦ answered_asData

theorem answered_sameWidth (here : footing.placed site.location) (first : RegisterOperand)
    (rest : List RegisterOperand) :
    AnsweredOn footing (fun _ ↦ True) (sameWidth site first rest) := by
  unfold sameWidth
  split
  · trivial
  · exact answered_refuse here _

theorem answered_value (holds : footing.Holds site operand) (what : Expected) :
    AnsweredOn footing footing.stated (value site operand what) := by
  have stated := holds.stated
  unfold Operand.numbers at stated
  unfold value
  split
  · rename_i number kind
    rw [kind] at stated
    exact stated number (List.mem_singleton_self number)
  · rename_i name kind
    rw [kind] at stated
    have bound (number : Int) (known : site.symbols.value? name = some number) :
        footing.stated number := by
      simp only [known] at stated
      exact stated number List.mem_cons_self
    exact (site.symbols.answered_resolve holds.placed name).mono bound
  · exact answered_refuse holds.placed _

theorem answered_shift? {modifier : Option Operand}
    (hold : ∀ operand ∈ modifier, footing.Holds site operand) :
    AnsweredOn footing (fun shift ↦ ∀ found ∈ shift, footing.Shifts found) (shift? modifier) := by
  cases modifier with
  | none => exact nofun
  | some operand =>
    obtain ⟨placed, stated⟩ := hold operand rfl
    unfold Operand.numbers at stated
    unfold shift?
    dsimp only
    split
    · rename_i kind amount known
      rw [known] at stated
      rintro _ ⟨⟩
      exact ⟨placed, List.forall_mem_singleton.mp stated⟩
    · exact answered_refuse placed _

theorem answered_shiftAmount (here : footing.placed location) {amount : Int}
    (stated : footing.stated amount) :
    AnsweredOn footing (fun _ ↦ True) (shiftAmount width location amount) := by
  unfold shiftAmount
  split
  · trivial
  · exact answered_outOfRange here stated _

theorem answered_anyShift {shift : Option ShiftOperand}
    (shifts : ∀ found ∈ shift, footing.Shifts found) :
    AnsweredOn footing (fun _ ↦ True) (anyShift width shift) := by
  cases shift with
  | none => trivial
  | some found =>
    obtain ⟨here, stated⟩ := shifts found rfl
    exact (answered_shiftAmount here stated).bind fun _ _ ↦ trivial

theorem answered_linearShift {shift : Option ShiftOperand}
    (shifts : ∀ found ∈ shift, footing.Shifts found) :
    AnsweredOn footing (fun _ ↦ True) (linearShift width shift) := by
  cases shift with
  | none => trivial
  | some found =>
    obtain ⟨here, stated⟩ := shifts found rfl
    unfold linearShift
    dsimp only
    split
    · exact answered_refuse here _
    · exact (answered_shiftAmount here stated).bind fun _ _ ↦ trivial

theorem answered_addSubRegister {shift : Option ShiftOperand}
    (shifts : ∀ found ∈ shift, footing.Shifts found) (op : AddSubOp) (setFlags : Bool)
    (rd rn rm : Reg) :
    AnsweredOn footing (fun _ ↦ True) (addSubRegister op setFlags width rd rn rm shift) :=
  (answered_linearShift shifts).bind fun _ _ ↦ trivial

theorem answered_logicalRegister {shift : Option ShiftOperand}
    (shifts : ∀ found ∈ shift, footing.Shifts found) (name : LogicalName) (rd rn rm : Reg) :
    AnsweredOn footing (fun _ ↦ True) (logicalRegister name width rd rn rm shift) :=
  (answered_anyShift shifts).bind fun _ _ ↦ trivial

theorem answered_arithmeticField {shift : Option ShiftOperand} (here : footing.placed location)
    (shifts : ∀ found ∈ shift, footing.Shifts found) {magnitude : Int}
    (stated : footing.stated magnitude) :
    AnsweredOn footing (fun _ ↦ True) (arithmeticField location magnitude shift) := by
  cases shift with
  | none =>
    unfold arithmeticField
    dsimp only
    split
    · trivial
    split
    · trivial
    · exact answered_outOfRange here stated _
  | some found =>
    unfold arithmeticField
    dsimp only
    split
    · exact answered_refuse (shifts found rfl).placed _
    split
    · exact answered_outOfRange here stated _
    · trivial

theorem answered_addSubImmediate {shift : Option ShiftOperand} (here : footing.placed location)
    (shifts : ∀ found ∈ shift, footing.Shifts found) (op : AddSubOp) (setFlags : Bool)
    (rd rn : Reg) {value : Int} (stated : footing.stated value) :
    AnsweredOn footing (fun _ ↦ True)
      (addSubImmediate op setFlags width rd rn value shift location) := by
  have magnitude : footing.stated (if value < 0 then (op.flip, -value) else (op, value)).2 := by
    split
    · exact footing.neg value stated
    · exact stated
  exact (answered_arithmeticField here shifts magnitude).bind fun _ _ ↦ trivial

/-- Operands of an operation, where each of them stands. -/
structure Arrangement.Stands (footing : Footing) (site : Site) (arrangement : Arrangement) :
    Prop where
  destination : footing.Holds site arrangement.destination
  first : ∀ operand ∈ arrangement.first, footing.Holds site operand
  second : footing.Holds site arrangement.second
  shift : ∀ operand ∈ arrangement.shift, footing.Holds site operand

section Operands

variable (places : ∀ operand ∈ operands, footing.Holds site operand)

include places

theorem arrange?_stands {arrangement : Arrangement} (h : arrange? operands = some arrangement) :
    arrangement.Stands footing site := by
  unfold arrange? at h
  split at h
  · cases h
    exact ⟨places _ (by simp), nofun, places _ (by simp), nofun⟩
  · split at h
    · cases h
      exact ⟨places _ (by simp), nofun, places _ (by simp), by simpa using places _ (by simp)⟩
    · cases h
      exact ⟨places _ (by simp), by simpa using places _ (by simp), places _ (by simp), nofun⟩
  · cases h
    exact ⟨places _ (by simp), by simpa using places _ (by simp), places _ (by simp),
      by simpa using places _ (by simp)⟩
  · cases h

theorem comparands?_stand {left right : Operand} {modifier : Option Operand}
    (h : comparands? operands = some (left, right, modifier)) :
    footing.Holds site left ∧ footing.Holds site right ∧
      ∀ operand ∈ modifier, footing.Holds site operand := by
  unfold comparands? at h
  split at h
  · cases h
    exact ⟨places _ (by simp), places _ (by simp), nofun⟩
  · cases h
    exact ⟨places _ (by simp), places _ (by simp), by simpa using places _ (by simp)⟩
  · cases h

theorem binary?_stand {destination second : Operand} {first : Option Operand}
    (h : binary? operands = some (destination, first, second)) :
    footing.Holds site destination ∧ (∀ operand ∈ first, footing.Holds site operand) ∧
      footing.Holds site second := by
  unfold binary? at h
  split at h
  · cases h
    exact ⟨places _ (by simp), nofun, places _ (by simp)⟩
  · cases h
    exact ⟨places _ (by simp), by simpa using places _ (by simp), places _ (by simp)⟩
  · cases h

end Operands

/-- The first source is read where it stands, or is the destination. -/
theorem answered_firstSource {arrangement : Arrangement} {rd : RegisterOperand}
    {read : Operand → Selected RegisterOperand} (stands : arrangement.Stands footing site)
    (here : footing.placed rd.location)
    (reads : ∀ {operand : Operand}, footing.placed operand.location →
      AnsweredOn footing (fun found ↦ footing.placed found.location) (read operand)) :
    AnsweredOn footing (fun found ↦ footing.placed found.location)
      (firstSource arrangement rd read) := by
  unfold firstSource
  split
  · exact here
  · rename_i operand first
    exact reads (stands.first operand first).placed

theorem answered_first {first : Option Operand} {rd : RegisterOperand}
    {select : RegisterOperand → Selected α} (selects : ∀ rn, AnsweredOn footing good (select rn)) :
    (∀ operand ∈ first, footing.Holds site operand) →
      AnsweredOn footing good (match first with
        | none => do select (← .ok rd)
        | some operand => do select (← dataRegister operand)) := by
  intro there
  cases first with
  | none => exact selects rd
  | some operand => exact (answered_dataRegister (there operand rfl).placed).bind fun rn _ ↦ selects rn

section

variable (here : footing.placed site.location)
  (places : ∀ operand ∈ operands, footing.Holds site operand)

include here

theorem answered_wrongCount (allowed : List Nat) :
    AnsweredOn footing good (wrongCount site allowed operands) := answered_refuse here _

include places

theorem answered_addSub (op : AddSubOp) (setFlags : Bool) :
    AnsweredOn footing (fun _ ↦ True) (addSub site op setFlags operands) := by
  unfold addSub
  split
  · exact answered_wrongCount here _
  rename_i arrangement arranged
  have stands := arrange?_stands places arranged
  refine (answered_register stands.destination.placed).bind fun rd hrd ↦
    (answered_firstSource stands hrd answered_register).bind fun rn hrn ↦
      (answered_shift? stands.shift).bind fun shift hshift ↦ ?_
  split
  · rename_i rm found
    have hrm : footing.placed rm.location := location_of_registerOf? found ▸ stands.second.placed
    exact (answered_asRegisterForm hrd).bind fun _ _ ↦ (answered_asRegisterForm hrn).bind fun _ _ ↦
      (answered_asRegisterForm hrm).bind fun _ _ ↦ (answered_sameWidth here _ _).bind fun _ _ ↦
        answered_addSubRegister hshift _ _ _ _ _
  · refine (answered_asStack hrn).bind fun rn _ ↦ ?_
    split
    · exact (answered_asData hrd).bind fun _ _ ↦ (answered_sameWidth here _ _).bind fun _ _ ↦
        (answered_value stands.second _).bind fun _ stated ↦
          answered_addSubImmediate here hshift _ _ _ _ stated
    · exact (answered_asStack hrd).bind fun _ _ ↦ (answered_sameWidth here _ _).bind fun _ _ ↦
        (answered_value stands.second _).bind fun _ stated ↦
          answered_addSubImmediate here hshift _ _ _ _ stated

theorem answered_compare (op : AddSubOp) :
    AnsweredOn footing (fun _ ↦ True) (compare site op operands) := by
  unfold compare
  split
  · exact answered_wrongCount here _
  rename_i left right modifier compared
  obtain ⟨hleft, hright, hmodifier⟩ := comparands?_stand places compared
  refine (answered_register hleft.placed).bind fun rn hrn ↦
    (answered_shift? hmodifier).bind fun shift hshift ↦ ?_
  split
  · rename_i rm found
    have hrm : footing.placed rm.location := location_of_registerOf? found ▸ hright.placed
    exact (answered_asData hrn).bind fun _ _ ↦ (answered_asData hrm).bind fun _ _ ↦
      (answered_sameWidth here _ _).bind fun _ _ ↦ answered_addSubRegister hshift _ _ _ _ _
  · exact (answered_asStack hrn).bind fun _ _ ↦ (answered_value hright _).bind fun _ stated ↦
      answered_addSubImmediate here hshift _ _ _ _ stated

theorem answered_test : AnsweredOn footing (fun _ ↦ True) (test site operands) := by
  unfold test
  split
  · exact answered_wrongCount here _
  rename_i left right modifier compared
  obtain ⟨hleft, hright, hmodifier⟩ := comparands?_stand places compared
  exact (answered_register hleft.placed).bind fun rn hrn ↦
    (answered_shift? hmodifier).bind fun shift hshift ↦ (answered_asData hrn).bind fun _ _ ↦
      (answered_dataRegister hright.placed).bind fun _ _ ↦ (answered_sameWidth here _ _).bind fun _ _ ↦
        answered_logicalRegister hshift _ _ _ _

theorem answered_logical (name : LogicalName) :
    AnsweredOn footing (fun _ ↦ True) (logical site name operands) := by
  unfold logical
  split
  · exact answered_wrongCount here _
  rename_i arrangement arranged
  have stands := arrange?_stands places arranged
  refine (answered_dataRegister stands.destination.placed).bind fun rd hrd ↦
    (answered_firstSource stands hrd answered_dataRegister).bind fun rn hrn ↦ ?_
  split
  · exact answered_refuse stands.second.placed _
  · rename_i rm found
    have hrm : footing.placed rm.location := location_of_registerOf? found ▸ stands.second.placed
    exact (answered_asData hrm).bind fun _ _ ↦ (answered_sameWidth here _ _).bind fun _ _ ↦
      (answered_shift? stands.shift).bind fun _ hshift ↦ answered_logicalRegister hshift _ _ _ _

theorem answered_unary {select : Width → Reg → Reg → Option ShiftOperand → Selected Instruction}
    (selects : ∀ width rd rm (shift : Option ShiftOperand),
      (∀ found ∈ shift, footing.Shifts found) →
      AnsweredOn footing (fun _ ↦ True) (select width rd rm shift)) :
    AnsweredOn footing (fun _ ↦ True) (unary site operands select) := by
  unfold unary
  split
  · exact answered_wrongCount here _
  rename_i destination source modifier compared
  obtain ⟨hdestination, hsource, hmodifier⟩ := comparands?_stand places compared
  exact (answered_dataRegister hdestination.placed).bind fun _ _ ↦
    (answered_dataRegister hsource.placed).bind fun _ _ ↦ (answered_sameWidth here _ _).bind fun _ _ ↦
      (answered_shift? hmodifier).bind fun shift hshift ↦ selects _ _ _ shift hshift

theorem answered_negate : AnsweredOn footing (fun _ ↦ True) (negate site operands) :=
  answered_unary here places fun _ _ _ _ shift ↦ answered_addSubRegister shift _ _ _ _ _

theorem answered_invert : AnsweredOn footing (fun _ ↦ True) (invert site operands) :=
  answered_unary here places fun _ _ _ _ shift ↦ answered_logicalRegister shift _ _ _ _

theorem answered_shift (kind : ShiftKind) :
    AnsweredOn footing (fun _ ↦ True) (shift site kind operands) := by
  unfold shift
  split
  · exact answered_wrongCount here _
  rename_i destination first second split
  obtain ⟨hdestination, hfirst, hsecond⟩ := binary?_stand places split
  refine (answered_dataRegister hdestination.placed).bind fun rd _ ↦
    answered_first (fun rn ↦ ?_) hfirst
  split
  · rename_i rm found
    have hrm : footing.placed rm.location := location_of_registerOf? found ▸ hsecond.placed
    exact (answered_asData hrm).bind fun _ _ ↦ (answered_sameWidth here _ _).bind fun _ _ ↦ trivial
  · exact (answered_sameWidth here _ _).bind fun _ _ ↦ (answered_value hsecond _).bind fun _ stated ↦
      (answered_shiftAmount here stated).bind fun _ _ ↦ trivial

theorem answered_binary (select : Width → Reg → Reg → Reg → Instruction) :
    AnsweredOn footing (fun _ ↦ True) (binary site operands select) := by
  unfold binary
  split
  · exact answered_wrongCount here _
  rename_i destination first second split
  obtain ⟨hdestination, hfirst, hsecond⟩ := binary?_stand places split
  refine (answered_dataRegister hdestination.placed).bind fun rd _ ↦
    answered_first (fun rn ↦ ?_) hfirst
  exact (answered_dataRegister hsecond.placed).bind fun _ _ ↦
    (answered_sameWidth here _ _).bind fun _ _ ↦ trivial

theorem answered_divide (signed : Bool) :
    AnsweredOn footing (fun _ ↦ True) (divide site signed operands) :=
  answered_binary here places _

theorem answered_multiply : AnsweredOn footing (fun _ ↦ True) (multiply site operands) :=
  answered_binary here places _

theorem answered_move : AnsweredOn footing (fun _ ↦ True) (move site operands) := by
  unfold move
  split
  · rename_i destination source
    have hsource : footing.Holds site source := places _ (by simp)
    refine (answered_register (places _ (by simp)).placed).bind fun rd hrd ↦ ?_
    split
    · rename_i rm found
      have hrm : footing.placed rm.location := location_of_registerOf? found ▸ hsource.placed
      refine (answered_sameWidth here _ _).bind fun width _ ↦ ?_
      split
      · exact (answered_asStack hrd).bind fun _ _ ↦ (answered_asStack hrm).bind fun _ _ ↦ trivial
      · trivial
    · split
      · exact answered_refuse hrd _
      · refine (answered_value hsource _).bind fun value stated ↦ ?_
        unfold moveImmediate
        split
        · exact answered_outOfRange here stated _
        split
        · exact answered_outOfRange here stated _
        · trivial
  · exact answered_wrongCount here _

theorem answered_moveWide (op : MoveWideOp) :
    AnsweredOn footing (fun _ ↦ True) (moveWide site op operands) := by
  unfold moveWide
  split
  · exact answered_wrongCount here _
  rename_i destination source modifier compared
  obtain ⟨hdestination, hsource, hmodifier⟩ := comparands?_stand places compared
  refine (answered_dataRegister hdestination.placed).bind fun rd _ ↦
    (answered_value hsource _).bind fun value stated ↦ ?_
  split
  · exact answered_outOfRange here stated _
  refine (answered_shift? hmodifier).bind fun shift hshift ↦ ?_
  have answered : AnsweredOn footing (fun _ ↦ True) (window rd.width shift) := by
    cases shift with
    | none => trivial
    | some found =>
      unfold window
      dsimp only
      split
      · trivial
      · exact answered_refuse (hshift found rfl).placed _
  exact answered.bind fun _ _ ↦ trivial

omit places in
theorem answered_branchOffset {target : Operand} (there : footing.Holds site target) (bits : Nat) :
    AnsweredOn footing (fun _ ↦ True) (branchOffset site bits target) := by
  have checked (name : String) (offset : Int) (stated : footing.stated offset) :
      AnsweredOn footing (fun _ ↦ True)
      (if offset % 4 ≠ 0 then
        .error ((AssemblyError.branchRange name offset .misaligned).locatedAt site.location)
      else if offset < -2 ^ (bits + 1) ∨ 2 ^ (bits + 1) ≤ offset then
        .error ((AssemblyError.branchRange name offset .outOfRange).locatedAt site.location)
      else .ok (BitVec.ofInt bits (offset / 4)) : Selected (BitVec bits)) := by
    split
    · exact AnsweredOn.locatedAt here (List.forall_mem_singleton.mpr stated)
    split
    · exact AnsweredOn.locatedAt here (List.forall_mem_singleton.mpr stated)
    · trivial
  have stated := there.stated
  unfold Operand.numbers at stated
  unfold branchOffset
  split
  · rename_i name kind
    rw [kind] at stated
    refine (site.symbols.answered_resolve there.placed _).bind fun address bound ↦ ?_
    simp only [bound] at stated
    exact checked _ _ (stated _ (List.mem_cons_of_mem _ List.mem_cons_self))
  · rename_i offset kind
    rw [kind] at stated
    exact checked _ _ (List.forall_mem_singleton.mp stated)
  · exact answered_refuse there.placed _

theorem answered_branch (link : Bool) :
    AnsweredOn footing (fun _ ↦ True) (branch site link operands) := by
  unfold branch
  split
  · exact (answered_branchOffset here (places _ (by simp)) _).bind fun _ _ ↦ trivial
  · exact answered_wrongCount here _

theorem answered_branchIf (condition : Condition) :
    AnsweredOn footing (fun _ ↦ True) (branchIf site condition operands) := by
  unfold branchIf
  split
  · exact (answered_branchOffset here (places _ (by simp)) _).bind fun _ _ ↦ trivial
  · exact answered_wrongCount here _

theorem answered_compareBranch (nonzero : Bool) :
    AnsweredOn footing (fun _ ↦ True) (compareBranch site nonzero operands) := by
  unfold compareBranch
  split
  · exact (answered_dataRegister (places _ (by simp)).placed).bind fun _ _ ↦
      (answered_branchOffset here (places _ (by simp)) _).bind fun _ _ ↦ trivial
  · exact answered_wrongCount here _

theorem answered_branchRegister (op : BranchRegisterOp) :
    AnsweredOn footing (fun _ ↦ True) (branchRegister site op operands) := by
  unfold branchRegister
  split
  · trivial
  · exact (answered_dataRegister (places _ (by simp)).placed).bind fun _ _ ↦ trivial
  · exact answered_wrongCount here _
  · exact answered_wrongCount here _

omit here places in
theorem answered_byteOffset (there : footing.placed location) {offset : Int}
    (stated : footing.stated offset) (slot : ImmediateSlot) :
    AnsweredOn footing (fun _ ↦ True) (byteOffset location offset slot) := by
  unfold byteOffset
  split
  · exact answered_outOfRange there stated _
  · trivial

omit here places in
theorem answered_scaledOffset (there : footing.placed location) {offset : Int}
    (stated : footing.stated offset) (name : TransferName) (transfer : Transfer) :
    AnsweredOn footing (fun _ ↦ True) (scaledOffset name transfer location offset) := by
  unfold scaledOffset
  dsimp only
  split
  · exact answered_outOfRange there stated _
  split
  · exact answered_outOfRange there stated _
  · trivial

omit here places in
theorem answered_addressing {target : Operand} {memory : MemoryOperand}
    (there : footing.Holds site target) (known : target.kind = .memory memory)
    (name : TransferName) (transfer : Transfer) :
    AnsweredOn footing (fun _ ↦ True)
      (addressing name transfer target.location memory.form) := by
  obtain ⟨placed, stated⟩ := there
  rw [Operand.numbers, known] at stated
  obtain ⟨base, form⟩ := memory
  cases form with
  | index => trivial
  | preIndex | postIndex =>
    have offset := List.forall_mem_singleton.mp stated
    exact (answered_byteOffset placed offset _).bind fun _ _ ↦ trivial
  | offset =>
    have offset := List.forall_mem_singleton.mp stated
    exact (answered_scaledOffset placed offset _ _).bind fun _ _ ↦ trivial

theorem answered_transfer (name : TransferName) :
    AnsweredOn footing (fun _ ↦ True) (transfer site name operands) := by
  unfold transfer
  split
  · rename_i data target
    have there : footing.Holds site target := places _ (by simp)
    refine (answered_dataRegister (places _ (by simp)).placed).bind fun rt hrt ↦ ?_
    split
    · exact answered_refuse hrt _
    split
    · rename_i known
      exact (answered_addressing there known _ _).bind fun _ _ ↦ trivial
    · split
      · exact answered_refuse there.placed _
      · exact (answered_branchOffset here there _).bind fun _ _ ↦ trivial
  · exact answered_wrongCount here _

theorem answered_unscaledTransfer (name : TransferName) :
    AnsweredOn footing (fun _ ↦ True) (unscaledTransfer site name operands) := by
  unfold unscaledTransfer
  split
  · rename_i data target
    have there : footing.Holds site target := places _ (by simp)
    refine (answered_dataRegister (places _ (by simp)).placed).bind fun rt hrt ↦ ?_
    split
    · exact answered_refuse hrt _
    split
    · rename_i known
      have stated := there.stated
      rw [Operand.numbers, known] at stated
      have offset := List.forall_mem_singleton.mp stated
      exact (answered_byteOffset there.placed offset _).bind fun _ _ ↦ trivial
    · exact answered_refuse there.placed _
  · exact answered_wrongCount here _

omit here places in
/-- The offset of a pair is the number of its operand. -/
theorem stated_of_pairTarget? {target : Operand} {base : Reg} {mode : PairMode} {offset : Int}
    (there : footing.Holds site target) (paired : pairTarget? target = some (base, mode, offset)) :
    footing.stated offset := by
  have stated := there.stated
  unfold Operand.numbers at stated
  unfold pairTarget? at paired
  split at paired
  · rename_i form known
    rw [known] at stated
    cases form <;> cases paired <;> exact List.forall_mem_singleton.mp stated
  · cases paired

theorem answered_pair (load : Bool) :
    AnsweredOn footing (fun _ ↦ True) (pair site load operands) := by
  unfold pair
  split
  · rename_i first second target
    have there : footing.Holds site target := places _ (by simp)
    refine (answered_dataRegister (places _ (by simp)).placed).bind fun rt _ ↦
      (answered_dataRegister (places _ (by simp)).placed).bind fun rt2 _ ↦
        (answered_sameWidth here _ _).bind fun width _ ↦ ?_
    split
    · exact answered_refuse there.placed _
    rename_i base mode offset paired
    have stated := stated_of_pairTarget? there paired
    have answered :
        AnsweredOn footing (fun _ ↦ True) (pairOffset width target.location offset) := by
      unfold pairOffset
      dsimp only
      split
      · exact answered_outOfRange there.placed stated _
      split
      · exact answered_outOfRange there.placed stated _
      · trivial
    exact answered.bind fun _ _ ↦ trivial
  · exact answered_wrongCount here _

omit places in
theorem answered_hint (kind : Hint) :
    AnsweredOn footing (fun _ ↦ True) (hint site kind operands) := by
  unfold hint
  split
  · trivial
  · exact answered_wrongCount here _

theorem answered_barrier (kind : Barrier) :
    AnsweredOn footing (fun _ ↦ True) (barrier site kind operands) := by
  unfold barrier
  split
  · trivial
  · rename_i option
    have there : footing.placed option.location := (places _ (by simp)).placed
    have known : AnsweredOn footing (fun _ ↦ True) (barrierOption option) := by
      unfold barrierOption
      dsimp only
      split
      · split
        · trivial
        · exact answered_refuse there _
      · split
        · trivial
        · exact answered_refuse there _
      · exact answered_refuse there _
    exact known.bind fun _ _ ↦ trivial
  · exact answered_wrongCount here _

theorem answered_exception (op : ExceptionOp) :
    AnsweredOn footing (fun _ ↦ True) (exception site op operands) := by
  unfold exception
  split
  · refine (answered_value (places _ (by simp)) _).bind fun value stated ↦ ?_
    split
    · exact answered_outOfRange here stated _
    · trivial
  · exact answered_wrongCount here _

omit places in
theorem answered_service (kind : Service) :
    AnsweredOn footing (fun _ ↦ True) (service site kind operands) := by
  unfold service
  split
  · trivial
  · exact answered_wrongCount here _

end

end Selection

/-- An instruction is refused at the statement or at one of its operands, with their numbers. -/
theorem Mnemonic.answered_select {footing : Footing} {site : Site} {operands : List Operand}
    (here : footing.placed site.location) (places : ∀ operand ∈ operands, footing.Holds site operand)
    (mnemonic : Mnemonic) : AnsweredOn footing (fun _ ↦ True) (mnemonic.select site operands) := by
  cases mnemonic with
  | addSub op setFlags => exact Selection.answered_addSub here places op setFlags
  | compare op => exact Selection.answered_compare here places op
  | test => exact Selection.answered_test here places
  | logical name => exact Selection.answered_logical here places name
  | negate => exact Selection.answered_negate here places
  | invert => exact Selection.answered_invert here places
  | shift kind => exact Selection.answered_shift here places kind
  | divide signed => exact Selection.answered_divide here places signed
  | multiply => exact Selection.answered_multiply here places
  | move => exact Selection.answered_move here places
  | moveWide op => exact Selection.answered_moveWide here places op
  | transfer name => exact Selection.answered_transfer here places name
  | unscaledTransfer name => exact Selection.answered_unscaledTransfer here places name
  | pair load => exact Selection.answered_pair here places load
  | branch link => exact Selection.answered_branch here places link
  | branchIf condition => exact Selection.answered_branchIf here places condition
  | compareBranch nonzero => exact Selection.answered_compareBranch here places nonzero
  | branchRegister op => exact Selection.answered_branchRegister here places op
  | hint kind => exact Selection.answered_hint here kind
  | barrier kind => exact Selection.answered_barrier here places kind
  | exception op => exact Selection.answered_exception here places op
  | service kind => exact Selection.answered_service here kind

end MiniA64
