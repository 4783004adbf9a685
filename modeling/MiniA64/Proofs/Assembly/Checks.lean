import MiniA64.Assembly.Selection

/-!
# What an accepted operand is

Selection reads operands through a few checks. Each check that accepts its operand tells what the
operand is; these statements are all that is needed of the checks later on.
-/

namespace MiniA64

/-- The value of a name that is bound. -/
def SymbolTable.value? (table : SymbolTable) (name : String) : Option Int :=
  ((table.find? name).filter (·.isDefined)).map (·.value)

/-- The value of a constant: an immediate, or a symbol that is bound. -/
def OperandKind.constant? (symbols : SymbolTable) : OperandKind → Option Int
  | immediate value => some value
  | symbol name => symbols.value? name
  | _ => none

/-- How far a target lies from a place: a number itself, or the way to the address of a symbol. -/
def OperandKind.displacement? (site : Site) : OperandKind → Option Int
  | immediate displacement => some displacement
  | symbol name => (site.symbols.value? name).map (· - site.address)
  | _ => none

theorem SymbolTable.value?_of_resolve {table : SymbolTable} {name : String} {location : Location}
    {value : Int} (h : table.resolve name location = .ok value) :
    table.value? name = some value := by
  rw [resolve] at h
  rw [value?]
  cases hfind : (table.find? name).filter (·.isDefined) with
  | none => simp [hfind] at h
  | some symbol =>
    rw [hfind] at h
    exact congrArg some (Except.ok.inj h)

namespace Selection

variable {site : Site} {operand : Operand} {register register' : RegisterOperand}

theorem bind_eq_ok {ε α β : Type} {step : Except ε α} {next : α → Except ε β} {result : β} :
    step >>= next = .ok result ↔ ∃ value, step = .ok value ∧ next value = .ok result := by
  cases step <;> simp [bind, Except.bind]

theorem pure_eq_ok {ε α : Type} {value result : α} :
    (pure value : Except ε α) = .ok result ↔ value = result := by
  simp [pure, Except.pure]

/-! ## Registers -/

theorem kind_of_registerOf? (h : registerOf? operand = some register) :
    operand.kind = .register register.name := by
  rw [registerOf?] at h
  split at h
  · rename_i name hkind
    cases h
    exact hkind
  · cases h

theorem register_ok (h : Selection.register operand = .ok register) :
    operand.kind = .register register.name := by
  rw [Selection.register] at h
  split at h
  · rename_i found hfound
    cases h
    exact kind_of_registerOf? hfound
  · cases h

theorem asData_ok (h : asData register = .ok register') :
    register' = register ∧ register.name.isStackPointer = false := by
  rw [asData] at h
  split at h
  · cases h
  · rename_i data
    cases h
    exact ⟨rfl, Bool.eq_false_iff.mpr data⟩

theorem asStack_ok (h : asStack register = .ok register') :
    register' = register ∧ register.name.isZero = false := by
  rw [asStack] at h
  split at h
  · cases h
  · rename_i stack
    cases h
    exact ⟨rfl, Bool.eq_false_iff.mpr stack⟩

theorem asRegisterForm_ok {accepted : Unit} (h : asRegisterForm register = .ok accepted) :
    register.name.isStackPointer = false := by
  rw [asRegisterForm] at h
  split at h
  · cases h
  · rename_i data
    exact Bool.eq_false_iff.mpr data

theorem dataRegister_ok (h : dataRegister operand = .ok register) :
    operand.kind = .register register.name ∧ register.name.isStackPointer = false := by
  obtain ⟨found, hfound, hdata⟩ := bind_eq_ok.mp h
  obtain ⟨rfl, data⟩ := asData_ok hdata
  exact ⟨register_ok hfound, data⟩

theorem sameWidth_ok {first : RegisterOperand} {rest : List RegisterOperand} {width : Width}
    (h : sameWidth site first rest = .ok width) :
    width = first.name.width ∧ ∀ register ∈ rest, register.name.width = first.name.width := by
  rw [sameWidth] at h
  split at h
  · rename_i same
    cases h
    exact ⟨rfl, fun register member ↦
      of_decide_eq_true (List.all_eq_true.mp same register member)⟩
  · cases h

/-! ## Constants and shifts -/

theorem value_ok {what : Expected} {value : Int}
    (h : Selection.value site operand what = .ok value) :
    operand.kind.constant? site.symbols = some value := by
  rw [Selection.value] at h
  split at h
  · rename_i found hkind
    cases h
    rw [hkind]
    rfl
  · rename_i name hkind
    rw [hkind]
    exact SymbolTable.value?_of_resolve h
  · cases h

/-- The kind and the amount of a shift that is written. -/
def written (shift : Option ShiftOperand) : Option (ShiftKind × Int) :=
  shift.map fun shift ↦ (shift.kind, shift.amount)

theorem shift?_ok {modifier : Option Operand} {shift : Option ShiftOperand}
    (h : shift? modifier = .ok shift) :
    modifier.map (·.kind) = (written shift).map fun shift ↦ .shift shift.1 shift.2 := by
  cases modifier with
  | none =>
    cases h
    rfl
  | some operand =>
    simp only [shift?] at h
    split at h
    · rename_i kind amount hkind
      cases h
      simp [written, hkind]
    · cases h

theorem shiftAmount_ok {width : Width} {location : Location} {amount : Int}
    {index : Fin width.bits} (h : shiftAmount width location amount = .ok index) :
    amount = index.val := by
  rw [shiftAmount] at h
  split at h
  · rename_i range
    cases h
    simp [Int.toNat_of_nonneg range.1]
  · cases h

/-- An amount field holds the amount of a shift, which is below the width. -/
structure ShiftFields (width : Width) (shift : Option (ShiftKind × Int)) (kind : ShiftKind)
    (amount : BitVec 6) : Prop where
  eq : shift.getD (.lsl, 0) = (kind, (amount.toNat : Int))
  below : amount.toNat < width.bits

theorem ShiftFields.of_index {width : Width} {kind : ShiftKind} (index : Fin width.bits) :
    ShiftFields width (some (kind, (index.val : Int))) kind (BitVec.ofNat 6 index.val) := by
  have below : index.val < 64 := Nat.lt_of_lt_of_le index.isLt (by cases width <;> decide)
  have number : (BitVec.ofNat 6 index.val).toNat = index.val := by
    rw [BitVec.toNat_ofNat, Nat.mod_eq_of_lt below]
  exact ⟨by rw [number]; rfl, by rw [number]; exact index.isLt⟩

theorem ShiftFields.none (width : Width) : ShiftFields width none .lsl 0 :=
  ⟨rfl, width.bits_pos⟩

theorem anyShift_ok {width : Width} {shift : Option ShiftOperand} {kind : ShiftKind}
    {amount : BitVec 6} (h : anyShift width shift = .ok (kind, amount)) :
    ShiftFields width (written shift) kind amount := by
  cases shift with
  | none =>
    cases h
    exact .none width
  | some shift =>
    obtain ⟨index, hindex, hresult⟩ := bind_eq_ok.mp h
    cases hresult
    rw [written, Option.map_some, shiftAmount_ok hindex]
    exact .of_index index

theorem linearShift_ok {width : Width} {shift : Option ShiftOperand} {kind : LinearShift}
    {amount : BitVec 6} (h : linearShift width shift = .ok (kind, amount)) :
    ShiftFields width (written shift) kind.kind amount := by
  cases shift with
  | none =>
    cases h
    exact .none width
  | some shift =>
    simp only [linearShift] at h
    split at h
    · cases h
    · rename_i linear hlinear
      obtain ⟨index, hindex, hresult⟩ := bind_eq_ok.mp h
      cases hresult
      have same : shift.kind = kind.kind := by
        cases hkind : shift.kind <;> rw [hkind] at hlinear <;> cases hlinear <;> rfl
      rw [written, Option.map_some, shiftAmount_ok hindex, same]
      exact .of_index index

/-! ## Displacements -/

/-- A value of a signed field is read back from the field. -/
theorem toInt_ofInt_of_range {bits : Nat} {value : Int} (some : 0 < bits)
    (range : -2 ^ (bits - 1) ≤ value ∧ value < 2 ^ (bits - 1)) :
    (BitVec.ofInt bits value).toInt = value := by
  have half : 2 ^ bits = 2 * 2 ^ (bits - 1) := by
    rw [← Nat.pow_succ', Nat.succ_eq_add_one, Nat.sub_add_cancel some]
  have cast : ((2 : Int) ^ (bits - 1)) = ((2 ^ (bits - 1) : Nat) : Int) := by
    rw [Int.natCast_pow]
    rfl
  rw [cast] at range
  rw [BitVec.toInt_ofInt]
  apply Int.bmod_eq_of_le <;> omega

/-- A displacement that is held in words has been found aligned and in range. -/
theorem wordField_ok {bits : Nat} {displacement : Int} {offset : BitVec bits}
    {misaligned outOfRange : Diagnostic} (some : 0 < bits)
    (h : (if displacement % 4 ≠ 0 then Except.error misaligned
      else if displacement < -2 ^ (bits + 1) ∨ 2 ^ (bits + 1) ≤ displacement then
        .error outOfRange
      else pure (BitVec.ofInt bits (displacement / 4))) = .ok offset) :
    offset.toInt * 4 = displacement := by
  split at h
  · cases h
  split at h
  · cases h
  rename_i aligned range
  cases pure_eq_ok.mp h
  have double : ((2 : Int) ^ (bits + 1)) = 4 * 2 ^ (bits - 1) := by
    rw [show bits + 1 = bits - 1 + 2 by omega, Int.pow_add, Int.mul_comm]
    rfl
  rw [double] at range
  rw [toInt_ofInt_of_range some (by omega)]
  omega

theorem branchOffset_ok {bits : Nat} {target : Operand} {offset : BitVec bits} (some : 0 < bits)
    (h : branchOffset site bits target = .ok offset) :
    target.kind.displacement? site = .some (offset.toInt * 4) := by
  unfold branchOffset at h
  split at h
  · rename_i name hkind
    obtain ⟨value, hvalue, h⟩ := bind_eq_ok.mp h
    obtain ⟨_, result, h⟩ := bind_eq_ok.mp h
    cases pure_eq_ok.mp result
    rw [hkind, OperandKind.displacement?, SymbolTable.value?_of_resolve hvalue, wordField_ok some h]
    rfl
  · rename_i value hkind
    obtain ⟨_, result, h⟩ := bind_eq_ok.mp h
    cases pure_eq_ok.mp result
    rw [hkind, OperandKind.displacement?, wordField_ok some h]
  · cases h

end Selection

end MiniA64
