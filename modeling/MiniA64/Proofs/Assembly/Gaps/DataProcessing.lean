import MiniA64.Proofs.Assembly.Gaps.Constants

/-!
# Gaps of data processing

The operands of data processing stand in arrangements of two to four, of which the last may be a
shift. A number that takes the place of another leaves the arrangement as it is, and so the field
that the number goes to.
-/

namespace MiniA64

namespace Gap

open Selection

variable {site : Site} {operands : List Operand} {index : Nat} {operand : Operand} {number : Int}
  {base : Instruction}

/-! ## Arrangements -/

/-- Where an operand stands in an arrangement, and what another one in its place gives. -/
theorem arrange?_set {arrangement : Arrangement} (arranged : arrange? operands = some arrangement)
    (there : operands[index]? = some operand) :
    arrangement.destination = operand ∨ arrangement.first = some operand ∨
      arrangement.second = operand ∧
        arrangement.shift.isNone = (index + 1 == operands.length) ∧
        (∀ next, isShift next = isShift operand → arrange? (operands.set index next) =
          some { arrangement with second := next }) ∨
      arrangement.shift = some operand ∧
        ∀ next, isShift next = isShift operand → arrange? (operands.set index next) =
          some { arrangement with shift := some next } := by
  unfold arrange? at arranged
  split at arranged
  · cases arranged
    match index, there with
    | 0, there => exact .inl (Option.some.inj there)
    | 1, there => exact .inr (.inr (.inl ⟨Option.some.inj there, rfl, fun _ _ ↦ rfl⟩))
  · rename_i a b c
    have chosen (next last : Operand) (same : isShift last = isShift c) :
        arrange? [a, next, last] = some
          (if isShift c then ⟨a, none, next, some last⟩ else ⟨a, some next, last, none⟩) := by
      rw [← same]
      rfl
    cases shift : isShift c with
    | true =>
      rw [if_pos shift] at arranged
      cases arranged
      match index, there with
      | 0, there => exact .inl (Option.some.inj there)
      | 1, there =>
        refine .inr (.inr (.inl ⟨Option.some.inj there, rfl, fun next _ ↦ ?_⟩))
        exact (chosen next c rfl).trans (congrArg some (if_pos shift))
      | 2, there =>
        cases there
        refine .inr (.inr (.inr ⟨rfl, fun next same ↦ ?_⟩))
        exact (chosen b next same).trans (congrArg some (if_pos shift))
    | false =>
      rw [if_neg (by simp [shift])] at arranged
      cases arranged
      match index, there with
      | 0, there => exact .inl (Option.some.inj there)
      | 1, there => exact .inr (.inl there)
      | 2, there =>
        cases there
        refine .inr (.inr (.inl ⟨rfl, rfl, fun next same ↦ ?_⟩))
        exact (chosen b next same).trans (congrArg some (if_neg (by simp [shift])))
  · cases arranged
    match index, there with
    | 0, there => exact .inl (Option.some.inj there)
    | 1, there => exact .inr (.inl there)
    | 2, there => exact .inr (.inr (.inl ⟨Option.some.inj there, rfl, fun _ _ ↦ rfl⟩))
    | 3, there => exact .inr (.inr (.inr ⟨there, fun _ _ ↦ rfl⟩))
  · cases arranged

theorem shift?_isNone {modifier : Option Operand} {shift : Option ShiftOperand}
    (accepted : shift? modifier = .ok shift) : shift.isNone = modifier.isNone := by
  have shown := congrArg Option.isNone (shift?_ok accepted)
  simpa [written] using shown.symm

/-! ## Comparisons -/

theorem exact_compare {op : AddSubOp} (there : operands[index]? = some operand)
    (holds : constant.Holds site operand number)
    (accepted : Selection.compare site op operands = .ok base) :
    constant.Exact site (if index + 1 == operands.length then .arithmetic op else .shifted op) base
      fun next ↦ Selection.compare site op (operands.set index next) := by
  have known := accepted
  rw [Selection.compare] at known
  split at known
  · cases known
  rename_i left right modifier arranged
  obtain ⟨rn, register, known⟩ := bind_eq_ok.mp known
  obtain ⟨shift, modified, known⟩ := bind_eq_ok.mp known
  rcases comparands?_set arranged there with rfl | ⟨rfl, last, refilled⟩ | ⟨rfl, -⟩
  · exact absurd (register_ok register) holds.ne_register
  · rw [holds.registerOf?_eq] at known
    obtain ⟨source, stack, -⟩ := bind_eq_ok.mp known
    have select (next : Operand) (number : Int) (holds : constant.Holds site next number) :
        Selection.compare site op (operands.set index next) =
          addSubImmediate op true source.width Reg.special source.number number shift
            site.location := by
      rw [Selection.compare, refilled]
      simp only [register, modified, holds.registerOf?_eq, stack, holds.value_eq, ok_bind]
    rw [← last, ← shift?_isNone modified]
    exact exact_addSubImmediate select holds (by rwa [set_of_there there])
  · exact absurd modified (shift?_ne holds)

/-- The amount of a shift in a comparison is that of its register or of its constant. -/
theorem exact_compare_amount {op : AddSubOp} {kind : ShiftKind} {slot : Slot} {last : Bool}
    (there : operands[index]? = some operand)
    (holds : (amount kind).Holds site operand number)
    (accepted : Selection.compare site op operands = .ok base)
    (filled : (amount kind).slot? last (.compare op) base = some slot) :
    (amount kind).Exact site slot base
      fun next ↦ Selection.compare site op (operands.set index next) := by
  have known := accepted
  rw [Selection.compare] at known
  split at known
  · cases known
  rename_i left right modifier arranged
  obtain ⟨rn, register, rest⟩ := bind_eq_ok.mp known
  obtain ⟨shift, modified, second⟩ := bind_eq_ok.mp rest
  rcases comparands?_set arranged there with rfl | ⟨rfl, -⟩ | ⟨rfl, refilled⟩
  · exact absurd (register_ok register) holds.ne_register
  · rw [holds.registerOf?_eq] at second
    obtain ⟨source, -, second⟩ := bind_eq_ok.mp second
    obtain ⟨value, constant, -⟩ := bind_eq_ok.mp second
    exact absurd constant holds.value_ne
  split at second
  · rename_i rm factored
    obtain ⟨source, dataN, second⟩ := bind_eq_ok.mp second
    obtain ⟨factor, dataM, second⟩ := bind_eq_ok.mp second
    obtain ⟨width, same, -⟩ := bind_eq_ok.mp second
    have select (next : Operand) (number : Int) (holds : (amount kind).Holds site next number) :
        Selection.compare site op (operands.set index next) =
          addSubRegister op true width Reg.special source.number factor.number
            (some ⟨kind, number, next.location⟩) := by
      rw [Selection.compare, refilled]
      simp only [register, holds.shift?_eq, factored, dataN, dataM, same, ok_bind]
    obtain ⟨linear, field, rfl, fits⟩ :=
      exact_addSubRegister select holds (by rwa [set_of_there there])
    cases filled
    exact fits
  · rename_i constantly
    obtain ⟨source, stack, second⟩ := bind_eq_ok.mp second
    obtain ⟨value, constant, -⟩ := bind_eq_ok.mp second
    have select (next : Operand) (number : Int) (holds : (amount kind).Holds site next number) :
        Selection.compare site op (operands.set index next) =
          addSubImmediate op true source.width Reg.special source.number value
            (some ⟨kind, number, next.location⟩) site.location := by
      rw [Selection.compare, refilled]
      simp only [register, holds.shift?_eq, constantly, stack, constant, ok_bind]
    obtain ⟨op, scaled, immediate, rfl, fits⟩ :=
      exact_scaled select holds (by rwa [set_of_there there])
    cases filled
    exact fits

theorem exact_test {kind : ShiftKind} (there : operands[index]? = some operand)
    (holds : (amount kind).Holds site operand number)
    (accepted : test site operands = .ok base) :
    ∃ width op invert field rm rn rd, base = .logical width op invert kind field rm rn rd ∧
      (amount kind).Exact site (.unsigned 10 6 width.bits 1) base
        fun next ↦ test site (operands.set index next) := by
  have known := accepted
  rw [test] at known
  split at known
  · cases known
  rename_i left right modifier arranged
  obtain ⟨rn, register, known⟩ := bind_eq_ok.mp known
  obtain ⟨shift, -, known⟩ := bind_eq_ok.mp known
  obtain ⟨source, dataN, known⟩ := bind_eq_ok.mp known
  obtain ⟨rm, dataM, known⟩ := bind_eq_ok.mp known
  obtain ⟨width, same, -⟩ := bind_eq_ok.mp known
  rcases comparands?_set arranged there with rfl | ⟨rfl, -⟩ | ⟨rfl, refilled⟩
  · exact absurd (register_ok register) holds.ne_register
  · exact absurd dataM holds.dataRegister_ne
  have select (next : Operand) (number : Int) (holds : (amount kind).Holds site next number) :
      test site (operands.set index next) =
        logicalRegister .ands width Reg.special source.number rm.number
          (some ⟨kind, number, next.location⟩) := by
    rw [test, refilled]
    simp only [register, holds.shift?_eq, dataN, dataM, same, ok_bind]
  obtain ⟨op, invert, field, made, fits⟩ :=
    exact_logicalRegister select holds (by rwa [set_of_there there])
  exact ⟨width, op, invert, field, _, _, _, made, fits⟩

/-- An operation on one register shifts it by the amount in its last operand. -/
theorem exact_unary {kind : ShiftKind}
    {encoder : Width → Reg → Reg → Option ShiftOperand → Selected Instruction}
    (there : operands[index]? = some operand) (holds : (amount kind).Holds site operand number)
    (accepted : unary site operands encoder = .ok base) :
    ∃ width rd rm, ∀ next number, (amount kind).Holds site next number →
      unary site (operands.set index next) encoder =
        encoder width rd rm (some ⟨kind, number, next.location⟩) := by
  have known := accepted
  rw [unary] at known
  split at known
  · cases known
  rename_i destination source modifier arranged
  obtain ⟨rd, dataD, known⟩ := bind_eq_ok.mp known
  obtain ⟨rm, dataM, known⟩ := bind_eq_ok.mp known
  obtain ⟨width, same, -⟩ := bind_eq_ok.mp known
  rcases comparands?_set arranged there with rfl | ⟨rfl, -⟩ | ⟨rfl, refilled⟩
  · exact absurd dataD holds.dataRegister_ne
  · exact absurd dataM holds.dataRegister_ne
  refine ⟨width, rd.number, rm.number, fun next number holds ↦ ?_⟩
  rw [unary, refilled]
  simp only [holds.shift?_eq, dataD, dataM, same, ok_bind]

theorem exact_negate {kind : ShiftKind} (there : operands[index]? = some operand)
    (holds : (amount kind).Holds site operand number)
    (accepted : negate site operands = .ok base) :
    ∃ width op setFlags linear field rm rn rd,
      base = .addSubRegister width op setFlags linear field rm rn rd ∧
        (amount kind).Exact site (.unsigned 10 6 width.bits 1) base
          fun next ↦ negate site (operands.set index next) := by
  obtain ⟨width, rd, rm, select⟩ := exact_unary there holds accepted
  obtain ⟨linear, field, made, fits⟩ :=
    exact_addSubRegister select holds (by rwa [set_of_there there])
  exact ⟨width, _, _, linear, field, _, _, _, made, fits⟩

theorem exact_invert {kind : ShiftKind} (there : operands[index]? = some operand)
    (holds : (amount kind).Holds site operand number)
    (accepted : invert site operands = .ok base) :
    ∃ width op inverted field rm rn rd, base = .logical width op inverted kind field rm rn rd ∧
      (amount kind).Exact site (.unsigned 10 6 width.bits 1) base
        fun next ↦ invert site (operands.set index next) := by
  obtain ⟨width, rd, rm, select⟩ := exact_unary there holds accepted
  obtain ⟨op, inverted, field, made, fits⟩ :=
    exact_logicalRegister select holds (by rwa [set_of_there there])
  exact ⟨width, op, inverted, field, _, _, _, made, fits⟩

/-! ## Operations on two sources -/

theorem exact_logical {name : LogicalName} {kind : ShiftKind}
    (there : operands[index]? = some operand) (holds : (amount kind).Holds site operand number)
    (accepted : logical site name operands = .ok base) :
    ∃ width op invert field rm rn rd, base = .logical width op invert kind field rm rn rd ∧
      (amount kind).Exact site (.unsigned 10 6 width.bits 1) base
        fun next ↦ logical site name (operands.set index next) := by
  have known := accepted
  rw [logical] at known
  split at known
  · cases known
  rename_i arrangement arranged
  obtain ⟨rd, dataD, known⟩ := bind_eq_ok.mp known
  obtain ⟨rn, dataN, known⟩ := bind_eq_ok.mp known
  split at known
  · cases known
  rename_i rm second
  obtain ⟨factor, dataM, known⟩ := bind_eq_ok.mp known
  obtain ⟨width, same, -⟩ := bind_eq_ok.mp known
  rcases arrange?_set arranged there with stands | stands | ⟨stands, -⟩ | ⟨-, refilled⟩
  · exact absurd (stands ▸ dataD) holds.dataRegister_ne
  · rw [firstSource, stands] at dataN
    exact absurd dataN holds.dataRegister_ne
  · rw [stands, holds.registerOf?_eq] at second
    cases second
  have select (next : Operand) (number : Int) (holds' : (amount kind).Holds site next number) :
      logical site name (operands.set index next) =
        logicalRegister name width rd.number rn.number factor.number
          (some ⟨kind, number, next.location⟩) := by
    have first : firstSource { arrangement with shift := some next } rd dataRegister = .ok rn :=
      dataN
    rw [logical, refilled next (by rw [holds.isShift_amount, holds'.isShift_amount])]
    simp only [dataD, first, second, dataM, same, holds'.shift?_eq, ok_bind]
  obtain ⟨op, invert, field, made, fits⟩ :=
    exact_logicalRegister select holds (by rwa [set_of_there there])
  exact ⟨width, op, invert, field, _, _, _, made, fits⟩

section

variable {op : AddSubOp} {setFlags : Bool} {arrangement : Arrangement}

/-- The operands of an accepted addition that can be read without the others. -/
theorem addSub_eq_ok (arranged : arrange? operands = some arrangement)
    (accepted : addSub site op setFlags operands = .ok base) :
    ∃ rd rn shift, register arrangement.destination = .ok rd ∧
      firstSource arrangement rd register = .ok rn ∧ shift? arrangement.shift = .ok shift := by
  rw [addSub, arranged] at accepted
  obtain ⟨rd, destination, accepted⟩ := bind_eq_ok.mp accepted
  obtain ⟨rn, first, accepted⟩ := bind_eq_ok.mp accepted
  obtain ⟨shift, modified, -⟩ := bind_eq_ok.mp accepted
  exact ⟨rd, rn, shift, destination, first, modified⟩

section

variable {rd rn : RegisterOperand} (arranged : arrange? operands = some arrangement)
  (destination : register arrangement.destination = .ok rd)
  (first : firstSource arrangement rd register = .ok rn)
  (accepted : addSub site op setFlags operands = .ok base)

include arranged destination first accepted

/-- With another constant or another shift of it, an addition of a constant is made the same way. -/
theorem addSub_constant (constant : registerOf? arrangement.second = none) :
    ∃ width value, Selection.value site arrangement.second .registerOrImmediate = .ok value ∧
      ∀ {changed : List Operand} {second : Operand} {other : Int} {modifier : Option Operand}
        {shift : Option ShiftOperand},
        arrange? changed = some { arrangement with second, shift := modifier } →
        registerOf? second = none → shift? modifier = .ok shift →
        Selection.value site second .registerOrImmediate = .ok other →
        addSub site op setFlags changed =
          addSubImmediate op setFlags width rd.number rn.number other shift site.location := by
  rw [addSub, arranged] at accepted
  simp only [destination, first, ok_bind, constant] at accepted
  obtain ⟨shift, -, accepted⟩ := bind_eq_ok.mp accepted
  obtain ⟨source, stackN, rest⟩ := bind_eq_ok.mp accepted
  obtain ⟨rfl, -⟩ := asStack_ok stackN
  replace rest : ((if setFlags then asData rd else asStack rd) >>= fun rd ↦ do
      let width ← sameWidth site rd [source]
      let value ← Selection.value site arrangement.second .registerOrImmediate
      addSubImmediate op setFlags width rd.number source.number value shift site.location) =
        .ok base := by
    cases setFlags <;> exact rest
  obtain ⟨target, checked, rest⟩ := bind_eq_ok.mp rest
  obtain ⟨width, same, rest⟩ := bind_eq_ok.mp rest
  obtain ⟨value, given, -⟩ := bind_eq_ok.mp rest
  have unchanged : target = rd := by
    cases setFlags with
    | true => exact (asData_ok checked).1
    | false => exact (asStack_ok checked).1
  subst unchanged
  refine ⟨width, value, given, ?_⟩
  intro changed second other modifier shift arranged constant modified given
  have source' : firstSource { arrangement with second, shift := modifier } target register =
      .ok source := first
  rw [addSub, arranged]
  simp only [destination, source', modified, constant, stackN, given, ok_bind]
  cases setFlags with
  | true =>
    rw [if_pos rfl] at checked
    simp only [if_true, checked, same, ok_bind]
  | false =>
    rw [if_neg Bool.false_ne_true] at checked
    simp only [Bool.false_eq_true, if_false, checked, same, ok_bind]

/-- With another shift, an addition of a register is made the same way. -/
theorem addSub_register {rm : RegisterOperand} (second : registerOf? arrangement.second = some rm) :
    ∃ width, ∀ {changed : List Operand} {modifier : Option Operand} {shift : Option ShiftOperand},
      arrange? changed = some { arrangement with shift := modifier } →
      shift? modifier = .ok shift →
      addSub site op setFlags changed =
        addSubRegister op setFlags width rd.number rn.number rm.number shift := by
  rw [addSub, arranged] at accepted
  simp only [destination, first, ok_bind, second] at accepted
  obtain ⟨shift, -, accepted⟩ := bind_eq_ok.mp accepted
  obtain ⟨_, dataD, accepted⟩ := bind_eq_ok.mp accepted
  obtain ⟨_, dataN, accepted⟩ := bind_eq_ok.mp accepted
  obtain ⟨_, dataM, accepted⟩ := bind_eq_ok.mp accepted
  obtain ⟨width, same, -⟩ := bind_eq_ok.mp accepted
  refine ⟨width, ?_⟩
  intro changed modifier shift arranged modified
  have source : firstSource { arrangement with shift := modifier } rd register = .ok rn := first
  rw [addSub, arranged]
  simp only [destination, source, second, modified, dataD, dataN, dataM, same, ok_bind]

end

theorem exact_addSub (there : operands[index]? = some operand)
    (holds : constant.Holds site operand number)
    (accepted : addSub site op setFlags operands = .ok base) :
    constant.Exact site (if index + 1 == operands.length then .arithmetic op else .shifted op) base
      fun next ↦ addSub site op setFlags (operands.set index next) := by
  cases arranged : arrange? operands with
  | none =>
    rw [addSub, arranged] at accepted
    cases accepted
  | some arrangement =>
  obtain ⟨rd, rn, shift, destination, first, modified⟩ := addSub_eq_ok arranged accepted
  rcases arrange?_set arranged there with stands | stands | ⟨stands, last, refilled⟩ | ⟨stands, -⟩
  · exact absurd (register_ok (stands ▸ destination)) holds.ne_register
  · rw [firstSource, stands] at first
    exact absurd (register_ok first) holds.ne_register
  · obtain ⟨width, -, -, same⟩ :=
      addSub_constant arranged destination first accepted (stands ▸ holds.registerOf?_eq)
    have select (next : Operand) (number : Int) (holds' : constant.Holds site next number) :=
      same (refilled next (holds'.isShift_eq.trans holds.isShift_eq.symm))
        holds'.registerOf?_eq modified holds'.value_eq
    rw [← last, ← shift?_isNone modified]
    exact exact_addSubImmediate select holds (by rwa [set_of_there there])
  · exact absurd (stands ▸ modified) (shift?_ne holds)

/-- The amount of a shift in an addition is that of its register or of its constant. -/
theorem exact_addSub_amount {kind : ShiftKind} {slot : Slot} {last : Bool}
    (there : operands[index]? = some operand) (holds : (amount kind).Holds site operand number)
    (accepted : addSub site op setFlags operands = .ok base)
    (filled : (amount kind).slot? last (.addSub op setFlags) base = some slot) :
    (amount kind).Exact site slot base
      fun next ↦ addSub site op setFlags (operands.set index next) := by
  cases arranged : arrange? operands with
  | none =>
    rw [addSub, arranged] at accepted
    cases accepted
  | some arrangement =>
  obtain ⟨rd, rn, shift, destination, first, modified⟩ := addSub_eq_ok arranged accepted
  have stands := arrange?_set arranged there
  cases second : registerOf? arrangement.second with
  | none =>
    obtain ⟨width, value, given, same⟩ :=
      addSub_constant arranged destination first accepted second
    rcases stands with stands | stands | ⟨stands, -⟩ | ⟨-, refilled⟩
    · exact absurd (register_ok (stands ▸ destination)) holds.ne_register
    · rw [firstSource, stands] at first
      exact absurd (register_ok first) holds.ne_register
    · exact absurd (stands ▸ given) holds.value_ne
    have select (next : Operand) (number : Int) (holds' : (amount kind).Holds site next number) :=
      same (refilled next (holds'.isShift_amount.trans holds.isShift_amount.symm)) second
        holds'.shift?_eq given
    obtain ⟨op, scaled, immediate, rfl, fits⟩ :=
      exact_scaled select holds (by rwa [set_of_there there])
    cases filled
    exact fits
  | some rm =>
    obtain ⟨width, same⟩ := addSub_register arranged destination first accepted second
    rcases stands with stands | stands | ⟨stands, -⟩ | ⟨-, refilled⟩
    · exact absurd (register_ok (stands ▸ destination)) holds.ne_register
    · rw [firstSource, stands] at first
      exact absurd (register_ok first) holds.ne_register
    · rw [stands, holds.registerOf?_eq] at second
      cases second
    have select (next : Operand) (number : Int) (holds' : (amount kind).Holds site next number) :=
      same (refilled next (holds'.isShift_amount.trans holds.isShift_amount.symm)) holds'.shift?_eq
    obtain ⟨linear, field, rfl, fits⟩ :=
      exact_addSubRegister select holds (by rwa [set_of_there there])
    cases filled
    exact fits

end

/-! ## Shifts by a constant -/

/-- Where an operand stands among two or three. -/
theorem binary?_set {destination second : Operand} {first : Option Operand}
    (arranged : binary? operands = some (destination, first, second))
    (there : operands[index]? = some operand) :
    destination = operand ∨ first = some operand ∨
      second = operand ∧
        ∀ next, binary? (operands.set index next) = some (destination, first, next) := by
  unfold binary? at arranged
  split at arranged
  · cases arranged
    match index, there with
    | 0, there => exact .inl (Option.some.inj there)
    | 1, there => exact .inr (.inr ⟨Option.some.inj there, fun _ ↦ rfl⟩)
  · cases arranged
    match index, there with
    | 0, there => exact .inl (Option.some.inj there)
    | 1, there => exact .inr (.inl there)
    | 2, there => exact .inr (.inr ⟨Option.some.inj there, fun _ ↦ rfl⟩)
  · cases arranged

theorem shift_constant {kind : ShiftKind} {destination second : Operand} {first : Option Operand}
    {rd : RegisterOperand} (arranged : binary? operands = some (destination, first, second))
    (dataD : dataRegister destination = .ok rd) (constant : registerOf? second = none) :
    Selection.shift site kind operands = do
      let rn ← first.elim (.ok rd) dataRegister
      let width ← sameWidth site rd [rn]
      let value ← Selection.value site second .registerOrShiftAmount
      let index ← shiftAmount width site.location value
      return shiftImmediate kind width index rn.number rd.number := by
  rw [Selection.shift, arranged]
  simp only [dataD, ok_bind, constant]
  cases first <;> rfl

/-- A shift to the left moves all bits but those that are lost. -/
theorem family_leftShift (width : Width) (rd rn : Reg) :
    (Slot.leftShift width).Family (fun amount ↦ shiftImmediate .lsl width amount rn rd)
      fun amount : Fin width.bits ↦ amount.val * (1 : Nat) where
  read_eq amount := by
    have below := amount.isLt
    have count : width.bits - 1 - amount.val + 1 = width.bits - amount.val := by omega
    simp only [Slot.leftShift, shiftImmediate, Instruction.field_bitfield_rotate,
      Instruction.field_bitfield_last, Instruction.toNat_bitNumber, count]
    rw [if_pos ⟨by omega, trivial⟩]
    congr 1
    push_cast
    omega
  outside part other i free := by
    simp only [Slot.leftShift] at free
    simp only [shiftImmediate, Instruction.encode, BitVec.getLsbD_append]
    grind
  onto word number read := by
    simp only [Slot.leftShift] at read
    split at read
    · rename_i inside
      refine ⟨⟨width.bits - 1 - (word.field 10 6).toNat, by omega⟩, ?_⟩
      have same := Option.some.inj read
      push_cast
      omega
    · cases read

/-- The amount is in one field, or in two for a shift to the left. -/
theorem family_shiftImmediate {kind : ShiftKind} {width : Width} {amount : Fin width.bits}
    {rn rd : Reg} {slot : Slot} {last : Bool}
    (filled : constant.slot? last (.shift kind) (shiftImmediate kind width amount rn rd) =
      some slot) :
    slot.Family (fun index ↦ shiftImmediate kind width index rn rd)
      fun index : Fin width.bits ↦ index.val * (1 : Nat) := by
  cases kind with
  | lsl =>
    cases filled
    exact family_leftShift width rd rn
  | lsr | asr =>
    cases filled
    exact Instruction.family_rotate width rd rn _ _
  | ror =>
    cases filled
    exact Instruction.family_extract width rd rn rn

theorem exact_shift {kind : ShiftKind} {slot : Slot} {last : Bool}
    (there : operands[index]? = some operand) (holds : constant.Holds site operand number)
    (accepted : Selection.shift site kind operands = .ok base)
    (filled : constant.slot? last (.shift kind) base = some slot) :
    constant.Exact site slot base
      fun next ↦ Selection.shift site kind (operands.set index next) := by
  have known := accepted
  rw [Selection.shift] at known
  split at known
  · cases known
  rename_i destination first second arranged
  obtain ⟨rd, dataD, rest⟩ := bind_eq_ok.mp known
  rcases binary?_set arranged there with rfl | rfl | ⟨rfl, refilled⟩
  · exact absurd dataD holds.dataRegister_ne
  · obtain ⟨rn, source, -⟩ := bind_eq_ok.mp rest
    exact absurd source holds.dataRegister_ne
  rw [shift_constant arranged dataD holds.registerOf?_eq] at accepted
  obtain ⟨rn, source, rest⟩ := bind_eq_ok.mp accepted
  obtain ⟨width, equal, rest⟩ := bind_eq_ok.mp rest
  obtain ⟨value, -, rest⟩ := bind_eq_ok.mp rest
  obtain ⟨amount, -, made⟩ := bind_eq_ok.mp rest
  cases pure_eq_ok.mp made
  have select (next : Operand) (number : Int) (instruction : Instruction)
      (holds : constant.Holds site next number) :
      Selection.shift site kind (operands.set index next) = .ok instruction ↔
        ∃ index : Fin width.bits, shiftImmediate kind width index rn.number rd.number =
          instruction ∧ (index.val * (1 : Nat) : Int) = number := by
    rw [shift_constant (refilled next) dataD holds.registerOf?_eq]
    simp only [source, equal, holds.value_eq, ok_bind, bind_eq_ok, pure_eq_ok,
      shiftAmount_eq_ok_iff, Int.natCast_one, Int.mul_one]
    grind
  refine exact_of_iff (family_shiftImmediate filled) select holds ?_
  rwa [set_of_there there, shift_constant arranged dataD holds.registerOf?_eq]

end Gap

end MiniA64
