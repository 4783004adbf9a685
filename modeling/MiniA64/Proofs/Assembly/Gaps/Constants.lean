import MiniA64.Proofs.Assembly.Gaps.Basic

/-!
# Gaps of constants

The numbers of calls, wide constants, the constants of additions and comparisons, and amounts of
shifts. A constant of an addition may be negative: then the instruction subtracts instead.
-/

namespace MiniA64

namespace Gap

open Selection

variable {site : Site} {operands : List Operand} {index : Nat} {operand : Operand} {number : Int}
  {base : Instruction}

/-! ## Numbers of calls and wide constants -/

theorem wide_eq_ok_iff (make : BitVec 16 → Instruction) {location : Location}
    {slot : ImmediateSlot} {instruction : Instruction} :
    (if number < 0 ∨ 0xFFFF < number then outOfRange location number slot
      else .ok (make (BitVec.ofInt 16 number))) = .ok instruction ↔
      ∃ part, make part = instruction ∧ (part.toNat * (1 : Nat) : Int) = number := by
  constructor
  · intro accepted
    split at accepted
    · cases accepted
    · rename_i range
      refine ⟨_, Except.ok.inj accepted, ?_⟩
      rw [ofInt_toNat_of_range range]
      exact Int.mul_one number
  · rintro ⟨part, rfl, rfl⟩
    have below := part.isLt
    rw [if_neg (by omega)]
    simp

theorem exact_exception {op : ExceptionOp} (there : operands[index]? = some operand)
    (holds : constant.Holds site operand number)
    (accepted : exception site op operands = .ok base) :
    constant.Exact site (.unsigned 5 16 (2 ^ 16) 1) base
      fun next ↦ exception site op (operands.set index next) := by
  have single := accepted
  unfold exception at single
  split at single
  · obtain ⟨rfl, rfl⟩ := eq_of_single there
    refine exact_of_iff (Instruction.family_exception op) (fun next number instruction holds ↦ ?_)
      holds accepted
    simp only [List.set_cons_zero, exception, holds.value_eq, ok_bind]
    exact wide_eq_ok_iff (.exception op)
  · cases single

/-- Where an operand stands among two with a modifier. -/
theorem comparands?_set {left right : Operand} {modifier : Option Operand}
    (arranged : comparands? operands = some (left, right, modifier))
    (there : operands[index]? = some operand) :
    left = operand ∨
      right = operand ∧ modifier.isNone = (index + 1 == operands.length) ∧
        (∀ next, comparands? (operands.set index next) = some (left, next, modifier)) ∨
      modifier = some operand ∧
        ∀ next, comparands? (operands.set index next) = some (left, right, some next) := by
  unfold comparands? at arranged
  split at arranged
  · cases arranged
    match index, there with
    | 0, there => exact .inl (Option.some.inj there)
    | 1, there => exact .inr (.inl ⟨Option.some.inj there, rfl, fun _ ↦ rfl⟩)
  · cases arranged
    match index, there with
    | 0, there => exact .inl (Option.some.inj there)
    | 1, there => exact .inr (.inl ⟨Option.some.inj there, rfl, fun _ ↦ rfl⟩)
    | 2, there => exact .inr (.inr ⟨there, fun _ ↦ rfl⟩)
  · cases arranged

/-- An operand that is no shift is refused as one. -/
theorem shift?_ne {shift : Option ShiftOperand} (holds : constant.Holds site operand number) :
    shift? (some operand) ≠ .ok shift := by
  intro accepted
  have kind := shift?_ok accepted
  cases shift with
  | none => cases kind
  | some shift =>
    have shown : operand.kind = .shift shift.kind shift.amount := Option.some.inj kind
    rw [Holds, shown] at holds
    cases holds

/-- The operand of a gap for an amount is a shift. -/
theorem Holds.shift?_eq {kind : ShiftKind} (holds : (amount kind).Holds site operand number) :
    shift? (some operand) = .ok (some ⟨kind, number, operand.location⟩) := by
  have shown : operand.kind = .shift kind number := holds
  simp only [shift?, shown]

theorem Holds.isShift_amount {kind : ShiftKind} (holds : (amount kind).Holds site operand number) :
    isShift operand = true := by
  have shown : operand.kind = .shift kind number := holds
  simp only [isShift, shown]

/-- The operand of a gap for an amount is no value. -/
theorem Holds.value_ne {kind : ShiftKind} {what : Expected} {value : Int}
    (holds : (amount kind).Holds site operand number) :
    Selection.value site operand what ≠ .ok value := by
  intro accepted
  have shown : operand.kind = .shift kind number := holds
  have constant := value_ok accepted
  rw [shown] at constant
  cases constant

theorem exact_moveWide {op : MoveWideOp} (there : operands[index]? = some operand)
    (holds : constant.Holds site operand number)
    (accepted : moveWide site op operands = .ok base) :
    constant.Exact site (.unsigned 5 16 (2 ^ 16) 1) base
      fun next ↦ moveWide site op (operands.set index next) := by
  have known := accepted
  rw [moveWide] at known
  split at known
  · cases known
  rename_i destination source modifier arranged
  obtain ⟨rt, register, known⟩ := bind_eq_ok.mp known
  obtain ⟨value, -, known⟩ := bind_eq_ok.mp known
  split at known
  · cases known
  obtain ⟨shift, modified, known⟩ := bind_eq_ok.mp known
  obtain ⟨window, placed, -⟩ := bind_eq_ok.mp known
  rcases comparands?_set arranged there with rfl | ⟨rfl, -, refilled⟩ | ⟨rfl, -⟩
  · exact absurd register holds.dataRegister_ne
  · refine exact_of_iff (Instruction.family_moveWide rt.width rt.number op window)
      (fun next number instruction holds ↦ ?_) holds (by rwa [set_of_there there])
    rw [moveWide, refilled]
    simp only [register, holds.value_eq, modified, placed, ok_bind]
    exact wide_eq_ok_iff fun part ↦ .moveWide rt.width op window part rt.number
  · exact absurd modified (shift?_ne holds)

theorem exact_window {op : MoveWideOp} {kind : ShiftKind} (there : operands[index]? = some operand)
    (holds : (amount kind).Holds site operand number)
    (accepted : moveWide site op operands = .ok base) :
    ∃ width window immediate rd, base = .moveWide width op window immediate rd ∧
      (amount kind).Exact site (.unsigned 21 2 (width.bits / 16) 16) base
        fun next ↦ moveWide site op (operands.set index next) := by
  have known := accepted
  rw [moveWide] at known
  split at known
  · cases known
  rename_i destination source modifier arranged
  obtain ⟨rt, register, known⟩ := bind_eq_ok.mp known
  obtain ⟨value, constant, known⟩ := bind_eq_ok.mp known
  split at known
  · cases known
  rename_i range
  obtain ⟨shift, modified, known⟩ := bind_eq_ok.mp known
  obtain ⟨window, placed, made⟩ := bind_eq_ok.mp known
  cases pure_eq_ok.mp made
  rcases comparands?_set arranged there with rfl | ⟨rfl, -⟩ | ⟨rfl, refilled⟩
  · exact absurd register holds.dataRegister_ne
  · exact absurd constant holds.value_ne
  · rw [holds.shift?_eq] at modified
    cases modified
    have lsl := (window_eq_ok_iff.mp placed).1
    refine ⟨_, _, _, _, rfl, exact_of_iff
      (Instruction.family_window rt.width rt.number op (BitVec.ofInt 16 value))
      (fun next number instruction holds ↦ ?_) holds ?_⟩
    · rw [moveWide, refilled]
      simp only [register, constant, holds.shift?_eq, ok_bind, if_neg range, bind_eq_ok,
        pure_eq_ok, window_eq_ok_iff, lsl, true_and]
      grind
    · rwa [set_of_there there]

/-! ## Amounts of shifted registers -/

section

variable {statement : Operand → Selected Instruction} {kind : ShiftKind} {width : Width}
  {rd rn rm : Reg}

theorem exact_addSubRegister {op : AddSubOp} {setFlags : Bool}
    (select : ∀ next number, (amount kind).Holds site next number →
      statement next =
        addSubRegister op setFlags width rd rn rm (some ⟨kind, number, next.location⟩))
    (holds : (amount kind).Holds site operand number) (accepted : statement operand = .ok base) :
    ∃ linear field, base = .addSubRegister width op setFlags linear field rm rn rd ∧
      (amount kind).Exact site (.unsigned 10 6 width.bits 1) base statement := by
  cases known : LinearShift.ofKind? kind with
  | none =>
    rw [select _ _ holds, addSubRegister, linearShift] at accepted
    dsimp only at accepted
    rw [known] at accepted
    cases accepted
  | some linear =>
    have takes (next : Operand) (number : Int) (instruction : Instruction)
        (holds : (amount kind).Holds site next number) :
        statement next = .ok instruction ↔ ∃ index : Fin width.bits,
          .addSubRegister width op setFlags linear (bitNumber index) rm rn rd = instruction ∧
            (index.val * (1 : Nat) : Int) = number := by
      rw [select next number holds, addSubRegister, linearShift]
      dsimp only
      simp only [known, bind_eq_ok, pure_eq_ok, shiftAmount_eq_ok_iff, Int.natCast_one,
        Int.mul_one, bitNumber]
      grind
    obtain ⟨index, rfl, -⟩ := (takes _ _ _ holds).mp accepted
    exact ⟨linear, _, rfl, exact_of_iff
      (Instruction.family_addSubRegister width rd rn op setFlags linear rm) takes holds accepted⟩

theorem exact_logicalRegister {name : LogicalName}
    (select : ∀ next number, (amount kind).Holds site next number →
      statement next = logicalRegister name width rd rn rm (some ⟨kind, number, next.location⟩))
    (holds : (amount kind).Holds site operand number) (accepted : statement operand = .ok base) :
    ∃ op invert field, base = .logical width op invert kind field rm rn rd ∧
      (amount kind).Exact site (.unsigned 10 6 width.bits 1) base statement := by
  have takes (next : Operand) (number : Int) (instruction : Instruction)
      (holds : (amount kind).Holds site next number) :
      statement next = .ok instruction ↔ ∃ index : Fin width.bits,
        .logical width name.operation.1 name.operation.2 kind (bitNumber index) rm rn rd =
          instruction ∧ (index.val * (1 : Nat) : Int) = number := by
    rw [select next number holds, logicalRegister, anyShift]
    simp only [bind_eq_ok, pure_eq_ok, shiftAmount_eq_ok_iff, Int.natCast_one, Int.mul_one,
      bitNumber]
    grind
  obtain ⟨index, rfl, -⟩ := (takes _ _ _ holds).mp accepted
  exact ⟨_, _, _, rfl, exact_of_iff
    (Instruction.family_logical width rd rn name.operation.1 name.operation.2 kind rm) takes holds
    accepted⟩

end

/-! ## Constants of additions -/

section

variable {statement : Operand → Selected Instruction} {width : Width} {rd rn : Reg}
  {op : AddSubOp} {setFlags : Bool} {location : Location}

theorem addSubImmediate_eq (value : Int) (shift : Option ShiftOperand) :
    addSubImmediate op setFlags width rd rn value shift location = do
      let (immediate, scaled) ← arithmeticField location value.natAbs shift
      return .addSubImmediate width (if value < 0 then op.flip else op) setFlags scaled immediate
        rn rd := by
  rw [addSubImmediate]
  by_cases negative : value < 0
  · rw [if_pos negative, if_pos negative, Int.ofNat_natAbs_of_nonpos (Int.le_of_lt negative)]
  · rw [if_neg negative, if_neg negative, Int.natAbs_of_nonneg (Int.not_lt.mp negative)]

theorem withSign_flip (value : Int) :
    Slot.withSign op (if value < 0 then op.flip else op) value.natAbs = value := by
  have turned : op.flip ≠ op := by cases op <;> decide
  by_cases negative : value < 0
  · rw [if_pos negative, Slot.withSign, if_neg turned]
    omega
  · rw [if_neg negative, Slot.withSign, if_pos rfl]
    omega

theorem natAbs_withSign (actual : AddSubOp) (magnitude : Nat) :
    (Slot.withSign op actual magnitude).natAbs = magnitude := by
  unfold Slot.withSign
  split <;> omega

/-- Twelve bits, scaled or not, are held without a shift that is written. -/
theorem exists_arithmeticField (immediate : BitVec 12) (scaled : Bool) :
    ∃ field, arithmeticField location
      ((immediate.toNat * if scaled then 4096 else 1 : Nat) : Int) none = .ok field := by
  have below := immediate.isLt
  cases scaled with
  | false =>
    have small : ((immediate.toNat * 1 : Nat) : Int) ≤ 4095 := by omega
    exact ⟨_, if_pos small⟩
  | true =>
    have multiple : ((immediate.toNat * 4096 : Nat) : Int) % 4096 = 0 ∧
        ((immediate.toNat * 4096 : Nat) : Int) / 4096 ≤ 4095 := by omega
    by_cases small : ((immediate.toNat * 4096 : Nat) : Int) ≤ 4095
    · exact ⟨_, if_pos small⟩
    · exact ⟨_, (if_neg small).trans (if_pos multiple)⟩

theorem exact_arithmetic
    (select : ∀ next number, constant.Holds site next number →
      statement next = addSubImmediate op setFlags width rd rn number none location)
    (holds : constant.Holds site operand number) (accepted : statement operand = .ok base) :
    constant.Exact site (.arithmetic op) base statement := by
  refine exact_of_family (Instruction.family_arithmetic width rd rn op setFlags)
    (fun next number instruction holds accepted ↦ ?_) (fun next part holds ↦ ?_) holds accepted
  · rw [select next number holds, addSubImmediate_eq] at accepted
    obtain ⟨⟨immediate, scaled⟩, field, made⟩ := bind_eq_ok.mp accepted
    have fields := DataProcessing.arithmeticField_ok rfl field
    refine ⟨⟨if number < 0 then op.flip else op, scaled, immediate⟩, pure_eq_ok.mp made, ?_⟩
    have magnitude : immediate.toNat * (if scaled then 4096 else 1) = number.natAbs :=
      fields.eq.trans (Nat.mul_one _)
    dsimp only
    rw [magnitude, withSign_flip]
  · obtain ⟨field, found⟩ := exists_arithmeticField part.2.2 part.2.1
    rw [select next _ holds, addSubImmediate_eq, natAbs_withSign, found]
    exact ⟨_, rfl⟩

/-- What a shift of a constant that is written has to be. -/
theorem arithmeticField_eq_ok_iff {magnitude : Nat} {shift : ShiftOperand} {immediate : BitVec 12}
    {scaled : Bool} :
    arithmeticField location magnitude (some shift) = .ok (immediate, scaled) ↔
      shift.kind = .lsl ∧ shift.amount = (scaled.toNat * (12 : Nat) : Int) ∧
        immediate.toNat = magnitude := by
  have below := immediate.isLt
  unfold arithmeticField
  dsimp only
  constructor
  · intro accepted
    split at accepted
    · cases accepted
    rename_i lsl
    split at accepted
    · cases accepted
    rename_i small
    obtain ⟨rfl, rfl⟩ := Prod.mk.inj (Except.ok.inj accepted)
    refine ⟨by grind, ?_, ?_⟩
    · by_cases twelve : shift.amount = 12
      · simp [twelve]
      · have zero : shift.amount = 0 := by grind
        simp [zero]
    · rw [BitVec.toNat_ofInt]
      omega
  · rintro ⟨lsl, amount, rfl⟩
    have twelve : decide (shift.amount = 12) = scaled := by
      rw [amount]
      cases scaled <;> decide
    rw [if_neg (by cases scaled <;> simp [lsl, amount]), if_neg (by omega), twelve]
    simp

/-- With a shift that is written the constant is not scaled of itself. -/
theorem exact_shifted {shift : ShiftOperand}
    (select : ∀ next number, constant.Holds site next number →
      statement next = addSubImmediate op setFlags width rd rn number (some shift) location)
    (holds : constant.Holds site operand number) (accepted : statement operand = .ok base) :
    constant.Exact site (.shifted op) base statement := by
  have known := accepted
  rw [select operand number holds, addSubImmediate_eq] at known
  obtain ⟨⟨immediate, scaled⟩, field, -⟩ := bind_eq_ok.mp known
  obtain ⟨lsl, amount, -⟩ := arithmeticField_eq_ok_iff.mp field
  refine exact_of_family (Instruction.family_shifted width rd rn op setFlags scaled)
    (fun next number instruction holds accepted ↦ ?_) (fun next part holds ↦ ?_) holds accepted
  · rw [select next number holds, addSubImmediate_eq] at accepted
    obtain ⟨⟨immediate, scaled'⟩, field, made⟩ := bind_eq_ok.mp accepted
    obtain ⟨-, amount', magnitude⟩ := arithmeticField_eq_ok_iff.mp field
    have same : scaled' = scaled := by
      rw [amount] at amount'
      cases scaled <;> cases scaled' <;> first | rfl | cases amount'
    rw [same] at made
    refine ⟨⟨if number < 0 then op.flip else op, immediate⟩, pure_eq_ok.mp made, ?_⟩
    dsimp only
    rw [magnitude, withSign_flip]
  · have found := @arithmeticField_eq_ok_iff location part.2.toNat shift part.2 scaled
    rw [select next _ holds, addSubImmediate_eq, natAbs_withSign, found.mpr ⟨lsl, amount, rfl⟩]
    exact ⟨_, rfl⟩

theorem exact_addSubImmediate {shift : Option ShiftOperand}
    (select : ∀ next number, constant.Holds site next number →
      statement next = addSubImmediate op setFlags width rd rn number shift location)
    (holds : constant.Holds site operand number) (accepted : statement operand = .ok base) :
    constant.Exact site (if shift.isNone then .arithmetic op else .shifted op) base statement := by
  cases shift with
  | none => exact exact_arithmetic select holds accepted
  | some shift => exact exact_shifted select holds accepted

/-- The shift of a constant that is written is by nothing or by twelve bits. -/
theorem exact_scaled {value : Int} {kind : ShiftKind}
    (select : ∀ next number, (amount kind).Holds site next number →
      statement next =
        addSubImmediate op setFlags width rd rn value (some ⟨kind, number, next.location⟩) location)
    (holds : (amount kind).Holds site operand number) (accepted : statement operand = .ok base) :
    ∃ op scaled immediate,
      base = .addSubImmediate width op setFlags scaled immediate rn rd ∧
        (amount kind).Exact site (.unsigned 22 1 2 12) base statement := by
  have known := accepted
  rw [select operand number holds, addSubImmediate_eq] at known
  obtain ⟨⟨immediate, scaled⟩, field, made⟩ := bind_eq_ok.mp known
  obtain ⟨lsl, -, magnitude⟩ := arithmeticField_eq_ok_iff.mp field
  cases pure_eq_ok.mp made
  refine ⟨_, scaled, immediate, rfl, exact_of_iff (Instruction.family_scaled width rd rn
    (if value < 0 then op.flip else op) setFlags immediate)
    (fun next number instruction holds ↦ ?_) holds accepted⟩
  rw [select next number holds, addSubImmediate_eq]
  constructor
  · intro accepted
    obtain ⟨⟨immediate', scaled⟩, field, put⟩ := bind_eq_ok.mp accepted
    obtain ⟨-, amount, same⟩ := arithmeticField_eq_ok_iff.mp field
    obtain rfl : immediate' = immediate := BitVec.eq_of_toNat_eq (same.trans magnitude.symm)
    exact ⟨scaled, pure_eq_ok.mp put, amount.symm⟩
  · rintro ⟨scaled, rfl, rfl⟩
    have found := @arithmeticField_eq_ok_iff location value.natAbs
      ⟨kind, scaled.toNat * (12 : Nat), next.location⟩ immediate scaled
    rw [found.mpr ⟨lsl, rfl, magnitude⟩]
    rfl

end

end Gap

end MiniA64
