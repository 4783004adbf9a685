import MiniA64.Proofs.DataProcessing.Meaning

/-!
# Forms of data-processing statements

Which instruction is selected for a data-processing statement, and what its operands then are. A
comparison, a negation and a complement are forms of another operation with the zero register; a
constant shift is a bitfield move or an extract; a constant is held exactly by the fields of its
instruction, with the operation turned around if it is negative.
-/

namespace MiniA64

namespace DataProcessing

open Selection (ShiftFields)

/-- The fields of an immediate hold the magnitude of a constant after its shift. -/
structure ImmediateFields (value : Int) (shift : Option (ShiftKind × Int))
    (immediate : BitVec 12) (shifted : Bool) : Prop where
  kind : (shift.getD (.lsl, 0)).1 = .lsl
  eq : immediate.toNat * (if shifted then 2 ^ 12 else 1) =
    value.natAbs * 2 ^ (shift.getD (.lsl, 0)).2.toNat

/-- The instruction of a statement as its operands are read. -/
inductive Form (symbols : SymbolTable) : Mnemonic → Reading → Instruction → Prop
  | addSubRegister {op : AddSubOp} {setFlags : Bool} {d n m : RegisterName}
      {shift : Option (ShiftKind × Int)} {linear : LinearShift} {amount : BitVec 6}
      (dataD : d.DataAt d.width) (dataN : n.DataAt d.width)
      (dataM : m.DataAt d.width) (fields : ShiftFields d.width shift linear.kind amount) :
      Form symbols (.addSub op setFlags) ⟨d, n, .register m, shift⟩
        (.addSubRegister d.width op setFlags linear amount m.number n.number d.number)
  | addSubImmediate {op : AddSubOp} {setFlags shifted : Bool} {d n : RegisterName}
      {second : OperandKind} {value : Int} {shift : Option (ShiftKind × Int)}
      {immediate : BitVec 12}
      (target : if setFlags then d.DataAt d.width else d.StackAt d.width)
      (stackN : n.StackAt d.width) (constant : second.constant? symbols = some value)
      (fields : ImmediateFields value shift immediate shifted) :
      Form symbols (.addSub op setFlags) ⟨d, n, second, shift⟩
        (.addSubImmediate d.width (if value < 0 then op.flip else op) setFlags shifted immediate
          n.number d.number)
  | compareRegister {op : AddSubOp} {n m : RegisterName} {shift : Option (ShiftKind × Int)}
      {linear : LinearShift} {amount : BitVec 6}
      (dataN : n.DataAt n.width) (dataM : m.DataAt n.width)
      (fields : ShiftFields n.width shift linear.kind amount) :
      Form symbols (.compare op) ⟨n, n, .register m, shift⟩
        (.addSubRegister n.width op true linear amount m.number n.number Reg.special)
  | compareImmediate {op : AddSubOp} {shifted : Bool} {n : RegisterName} {second : OperandKind}
      {value : Int} {shift : Option (ShiftKind × Int)} {immediate : BitVec 12}
      (stackN : n.StackAt n.width)
      (constant : second.constant? symbols = some value)
      (fields : ImmediateFields value shift immediate shifted) :
      Form symbols (.compare op) ⟨n, n, second, shift⟩
        (.addSubImmediate n.width (if value < 0 then op.flip else op) true shifted immediate
          n.number Reg.special)
  | test {n m : RegisterName} {shift : Option (ShiftKind × Int)} {kind : ShiftKind}
      {amount : BitVec 6} (dataN : n.DataAt n.width) (dataM : m.DataAt n.width)
      (fields : ShiftFields n.width shift kind amount) :
      Form symbols .test ⟨n, n, .register m, shift⟩
        (.logical n.width .ands false kind amount m.number n.number Reg.special)
  | logical {name : LogicalName} {d n m : RegisterName} {shift : Option (ShiftKind × Int)}
      {kind : ShiftKind} {amount : BitVec 6}
      (dataD : d.DataAt d.width) (dataN : n.DataAt d.width) (dataM : m.DataAt d.width)
      (fields : ShiftFields d.width shift kind amount) :
      Form symbols (.logical name) ⟨d, n, .register m, shift⟩
        (.logical d.width name.operation.1 name.operation.2 kind amount m.number n.number
          d.number)
  | negate {d m : RegisterName} {shift : Option (ShiftKind × Int)} {linear : LinearShift}
      {amount : BitVec 6} (dataD : d.DataAt d.width) (dataM : m.DataAt d.width)
      (fields : ShiftFields d.width shift linear.kind amount) :
      Form symbols .negate ⟨d, d, .register m, shift⟩
        (.addSubRegister d.width .sub false linear amount m.number Reg.special d.number)
  | invert {d m : RegisterName} {shift : Option (ShiftKind × Int)} {kind : ShiftKind}
      {amount : BitVec 6} (dataD : d.DataAt d.width) (dataM : m.DataAt d.width)
      (fields : ShiftFields d.width shift kind amount) :
      Form symbols .invert ⟨d, d, .register m, shift⟩
        (.logical d.width .orr true kind amount m.number Reg.special d.number)
  | shiftRegister {kind : ShiftKind} {d n m : RegisterName}
      (dataD : d.DataAt d.width) (dataN : n.DataAt d.width) (dataM : m.DataAt d.width) :
      Form symbols (.shift kind) ⟨d, n, .register m, none⟩
        (.twoSource d.width (.shift kind) m.number n.number d.number)
  | shiftConstant {kind : ShiftKind} {d n : RegisterName} {second : OperandKind}
      {index : Fin d.width.bits} (dataD : d.DataAt d.width) (dataN : n.DataAt d.width)
      (constant : second.constant? symbols = some (index.val : Int)) :
      Form symbols (.shift kind) ⟨d, n, second, none⟩
        (Selection.shiftImmediate kind d.width index n.number d.number)
  | divide {signed : Bool} {d n m : RegisterName}
      (dataD : d.DataAt d.width) (dataN : n.DataAt d.width) (dataM : m.DataAt d.width) :
      Form symbols (.divide signed) ⟨d, n, .register m, none⟩
        (.twoSource d.width (if signed then .sdiv else .udiv) m.number n.number d.number)
  | multiply {d n m : RegisterName}
      (dataD : d.DataAt d.width) (dataN : n.DataAt d.width) (dataM : m.DataAt d.width) :
      Form symbols .multiply ⟨d, n, .register m, none⟩
        (.multiplyAdd d.width false m.number Reg.special n.number d.number)
  | moveRegister {d m : RegisterName} (dataD : d.DataAt d.width) (dataM : m.DataAt d.width) :
      Form symbols .move ⟨d, d, .register m, none⟩
        (.logical d.width .orr false .lsl 0 m.number Reg.special d.number)
  | moveStack {d m : RegisterName} (stackD : d.StackAt d.width) (stackM : m.StackAt d.width) :
      Form symbols .move ⟨d, d, .register m, none⟩
        (.addSubImmediate d.width .add false false 0 m.number d.number)
  | moveConstant {d : RegisterName} {second : OperandKind} {value : Int}
      {move : WindowMove d.width.bits} (dataD : d.DataAt d.width)
      (constant : second.constant? symbols = some value)
      (fits : WindowMove.ofValue? (BitVec.ofInt d.width.bits value) = some move) :
      Form symbols .move ⟨d, d, second, none⟩
        (.moveWide d.width move.op move.window move.immediate d.number)
  | moveWide {d : RegisterName} {second : OperandKind} {value : Int}
      {shift : Option (ShiftKind × Int)} {move : MoveWideOp} {window : Fin (d.width.bits / 16)}
      (dataD : d.DataAt d.width)
      (constant : second.constant? symbols = some value) (range : 0 ≤ value ∧ value ≤ 0xFFFF)
      (place : shift.getD (.lsl, 0) = (ShiftKind.lsl, ((16 * window.val : Nat) : Int))) :
      Form symbols (.moveWide move) ⟨d, d, second, shift⟩
        (.moveWide d.width move window (BitVec.ofInt 16 value) d.number)

/-! ## Operands as they are arranged -/

section

variable {operands : List Operand} {rd rn : RegisterName} {shift : Option (ShiftKind × Int)}

theorem Reading.of_arrange {arrangement : Selection.Arrangement}
    (harrange : Selection.arrange? operands = some arrangement)
    (hrd : arrangement.destination.kind = .register rd)
    (hrn : (arrangement.first.map (·.kind)).getD (.register rd) = .register rn)
    (hshift : arrangement.shift.map (·.kind) = shift.map fun shift ↦ .shift shift.1 shift.2) :
    Reading.of? (operands.map (·.kind)) = some ⟨rd, rn, arrangement.second.kind, shift⟩ := by
  unfold Selection.arrange? at harrange
  split at harrange
  · cases harrange
    dsimp only at hrd
    cases shift <;> cases hshift
    cases hrn
    simp [Reading.of?, hrd]
  · rename_i a b c
    cases hc : c.kind with
    | shift kind amount =>
      rw [if_pos (by simp [Selection.isShift, hc])] at harrange
      cases harrange
      dsimp only at hrd
      rw [Option.map_some, hc] at hshift
      cases shift <;> cases hshift
      cases hrn
      simp [Reading.of?, hrd, hc]
    | _ =>
      rw [if_neg (by simp [Selection.isShift, hc])] at harrange
      cases harrange
      dsimp only at hrd
      cases shift <;> cases hshift
      replace hrn : b.kind = .register rn := hrn
      simp [Reading.of?, hrd, hrn, hc]
  · cases harrange
    dsimp only at hrd
    cases shift with
    | none => cases hshift
    | some shift =>
      simp only [Option.map_some, Option.getD_some, Option.some.injEq] at hshift hrn
      simp [Reading.of?, hrd, hrn, hshift]
  · cases harrange

theorem Reading.of_comparands {left right : Operand} {modifier : Option Operand}
    (hcomparands : Selection.comparands? operands = some (left, right, modifier))
    (hrd : left.kind = .register rd)
    (hshift : modifier.map (·.kind) = shift.map fun shift ↦ .shift shift.1 shift.2) :
    Reading.of? (operands.map (·.kind)) = some ⟨rd, rd, right.kind, shift⟩ := by
  unfold Selection.comparands? at hcomparands
  split at hcomparands
  · cases hcomparands
    cases shift <;> cases hshift
    simp [Reading.of?, hrd]
  · cases hcomparands
    cases shift with
    | none => cases hshift
    | some shift =>
      simp only [Option.map_some, Option.some.injEq] at hshift
      simp [Reading.of?, hrd, hshift]
  · cases hcomparands

theorem Reading.of_binary {destination second : Operand} {first : Option Operand}
    (hbinary : Selection.binary? operands = some (destination, first, second))
    (hrd : destination.kind = .register rd)
    (hrn : (first.map (·.kind)).getD (.register rd) = .register rn)
    (noShift : Selection.isShift second = false) :
    Reading.of? (operands.map (·.kind)) = some ⟨rd, rn, second.kind, none⟩ := by
  unfold Selection.binary? at hbinary
  split at hbinary
  · cases hbinary
    cases hrn
    simp [Reading.of?, hrd]
  · cases hbinary
    simp only [Option.map_some, Option.getD_some] at hrn
    cases hc : second.kind <;> simp [Selection.isShift, hc] at noShift <;>
      simp [Reading.of?, hrd, hrn, hc]
  · cases hbinary

end

/-! ## Selection gives the forms -/

section

variable {site : Site} {operands : List Operand} {instruction : Instruction} {width : Width}
  {rd rn rm : Reg} {shift : Option ShiftOperand} {op : AddSubOp} {setFlags : Bool}

open Selection

theorem addSubRegister_ok
    (h : Selection.addSubRegister op setFlags width rd rn rm shift = .ok instruction) :
    ∃ linear amount, ShiftFields width (written shift) linear.kind amount ∧
      instruction = .addSubRegister width op setFlags linear amount rm rn rd := by
  obtain ⟨⟨linear, amount⟩, fields, result⟩ := bind_eq_ok.mp h
  exact ⟨linear, amount, linearShift_ok fields, (pure_eq_ok.mp result).symm⟩

theorem logicalRegister_ok {name : LogicalName}
    (h : logicalRegister name width rd rn rm shift = .ok instruction) :
    ∃ kind amount, ShiftFields width (written shift) kind amount ∧
      instruction =
        .logical width name.operation.1 name.operation.2 kind amount rm rn rd := by
  obtain ⟨⟨kind, amount⟩, fields, result⟩ := bind_eq_ok.mp h
  exact ⟨kind, amount, anyShift_ok fields, (pure_eq_ok.mp result).symm⟩

theorem arithmeticField_ok {location : Location} {value magnitude : Int} {immediate : BitVec 12}
    {shifted : Bool} (hmagnitude : magnitude = value.natAbs)
    (h : arithmeticField location magnitude shift = .ok (immediate, shifted)) :
    ImmediateFields value (written shift) immediate shifted := by
  cases shift with
  | none =>
    simp only [arithmeticField] at h
    split at h
    · cases h
      exact ⟨rfl, by simp [written, BitVec.toNat_ofInt]; omega⟩
    split at h
    · cases h
      exact ⟨rfl, by simp [written, BitVec.toNat_ofInt]; omega⟩
    · cases h
  | some shift =>
    simp only [arithmeticField] at h
    split at h
    · cases h
    rename_i lsl
    split at h
    · cases h
    cases h
    have kind : shift.kind = .lsl := by
      by_cases same : shift.kind = .lsl
      · exact same
      · exact absurd (.inl same) lsl
    refine ⟨kind, ?_⟩
    by_cases twelve : shift.amount = 12
    · simp [written, twelve, BitVec.toNat_ofInt]
      omega
    · have zero : shift.amount = 0 := by omega
      simp [written, zero, BitVec.toNat_ofInt]
      omega

theorem addSubImmediate_ok {value : Int} {location : Location}
    (h : Selection.addSubImmediate op setFlags width rd rn value shift location =
      .ok instruction) :
    ∃ immediate shifted, ImmediateFields value (written shift) immediate shifted ∧
      instruction = .addSubImmediate width (if value < 0 then op.flip else op) setFlags shifted
        immediate rn rd := by
  rw [Selection.addSubImmediate] at h
  split at h
  rename_i op' magnitude hop
  obtain ⟨⟨immediate, shifted⟩, fields, result⟩ := bind_eq_ok.mp h
  have same : op' = if value < 0 then op.flip else op := by split at hop <;> cases hop <;> simp [*]
  have hmagnitude : magnitude = value.natAbs := by split at hop <;> cases hop <;> omega
  exact ⟨immediate, shifted, arithmeticField_ok hmagnitude fields,
    by rw [← pure_eq_ok.mp result, same]⟩

theorem firstSource_ok {arrangement : Arrangement} {destination source : RegisterOperand}
    {read : Operand → Selected RegisterOperand} (Fits : RegisterName → Prop)
    (hread : ∀ operand register, read operand = .ok register →
      operand.kind = .register register.name ∧ Fits register.name)
    (fits : Fits destination.name)
    (h : firstSource arrangement destination read = .ok source) :
    (arrangement.first.map (·.kind)).getD (.register destination.name) =
      .register source.name ∧ Fits source.name := by
  rw [firstSource] at h
  split at h
  · rename_i none
    cases h
    exact ⟨by rw [none]; rfl, fits⟩
  · rename_i operand some
    rw [some]
    exact hread operand source h

/-- The first source of an operation that takes no shift. -/
theorem first_ok {first : Option Operand} {destination : RegisterOperand}
    {next : RegisterOperand → Selected Instruction}
    (data : destination.name.isStackPointer = false)
    (h : (match first with
      | none => Except.ok destination >>= next
      | some operand => dataRegister operand >>= next) = .ok instruction) :
    ∃ source, (first.map (·.kind)).getD (.register destination.name) = .register source.name ∧
      source.name.isStackPointer = false ∧ next source = .ok instruction := by
  cases first with
  | none => exact ⟨destination, rfl, data, h⟩
  | some operand =>
    obtain ⟨source, hsource, h⟩ := bind_eq_ok.mp h
    obtain ⟨kind, data⟩ := dataRegister_ok hsource
    exact ⟨source, kind, data, h⟩

theorem exists_form_addSub (h : Selection.addSub site op setFlags operands = .ok instruction) :
    ∃ reading, Reading.of? (operands.map (·.kind)) = some reading ∧
      Form site.symbols (.addSub op setFlags) reading instruction := by
  rw [Selection.addSub] at h
  split at h
  · cases h
  rename_i arrangement harrange
  obtain ⟨rd, hrd, h⟩ := bind_eq_ok.mp h
  obtain ⟨rn, hrn, h⟩ := bind_eq_ok.mp h
  obtain ⟨shift, hshift, h⟩ := bind_eq_ok.mp h
  have first := (firstSource_ok (fun _ ↦ True)
    (fun operand register h ↦ ⟨register_ok h, trivial⟩) trivial hrn).1
  have reading := Reading.of_arrange harrange (register_ok hrd) first (shift?_ok hshift)
  refine ⟨_, reading, ?_⟩
  split at h
  · rename_i rm hrm
    obtain ⟨_, dataD, h⟩ := bind_eq_ok.mp h
    obtain ⟨_, dataN, h⟩ := bind_eq_ok.mp h
    obtain ⟨_, dataM, h⟩ := bind_eq_ok.mp h
    obtain ⟨width, hwidth, h⟩ := bind_eq_ok.mp h
    obtain ⟨rfl, same⟩ := sameWidth_ok hwidth
    obtain ⟨linear, amount, fields, rfl⟩ := addSubRegister_ok h
    rw [kind_of_registerOf? hrm]
    exact .addSubRegister ⟨asRegisterForm_ok dataD, rfl⟩
      ⟨asRegisterForm_ok dataN, same rn (by simp)⟩ ⟨asRegisterForm_ok dataM, same rm (by simp)⟩
      fields
  · obtain ⟨source, hsource, rest⟩ := bind_eq_ok.mp h
    obtain ⟨rfl, stackN⟩ := asStack_ok hsource
    replace rest : ((if setFlags then asData rd else asStack rd) >>= fun rd ↦ do
        let width ← sameWidth site rd [source]
        let value ← Selection.value site arrangement.second .registerOrImmediate
        Selection.addSubImmediate op setFlags width rd.number source.number value shift
          site.location) = .ok instruction := by
      cases setFlags <;> exact rest
    obtain ⟨target, htarget, rest⟩ := bind_eq_ok.mp rest
    obtain ⟨width, hwidth, rest⟩ := bind_eq_ok.mp rest
    obtain ⟨rfl, same⟩ := sameWidth_ok hwidth
    obtain ⟨value, hvalue, rest⟩ := bind_eq_ok.mp rest
    obtain ⟨immediate, shifted, fields, rfl⟩ := addSubImmediate_ok rest
    have fits : target = rd ∧
        if setFlags then rd.name.DataAt rd.name.width else rd.name.StackAt rd.name.width := by
      cases setFlags with
      | true =>
        obtain ⟨rfl, data⟩ := asData_ok htarget
        exact ⟨rfl, data, rfl⟩
      | false =>
        obtain ⟨rfl, stack⟩ := asStack_ok htarget
        exact ⟨rfl, stack, rfl⟩
    obtain ⟨rfl, fits⟩ := fits
    exact .addSubImmediate fits ⟨stackN, same source (by simp)⟩ (value_ok hvalue) fields

theorem exists_form_compare (h : Selection.compare site op operands = .ok instruction) :
    ∃ reading, Reading.of? (operands.map (·.kind)) = some reading ∧
      Form site.symbols (.compare op) reading instruction := by
  rw [Selection.compare] at h
  split at h
  · cases h
  rename_i left right modifier hcomparands
  obtain ⟨rn, hrn, h⟩ := bind_eq_ok.mp h
  obtain ⟨shift, hshift, h⟩ := bind_eq_ok.mp h
  refine ⟨_, Reading.of_comparands hcomparands (register_ok hrn) (shift?_ok hshift), ?_⟩
  split at h
  · rename_i rm hrm
    obtain ⟨source, dataN, h⟩ := bind_eq_ok.mp h
    obtain ⟨operand, dataM, h⟩ := bind_eq_ok.mp h
    obtain ⟨width, hwidth, h⟩ := bind_eq_ok.mp h
    obtain ⟨rfl, dataN⟩ := asData_ok dataN
    obtain ⟨rfl, dataM⟩ := asData_ok dataM
    obtain ⟨rfl, same⟩ := sameWidth_ok hwidth
    obtain ⟨linear, amount, fields, rfl⟩ := addSubRegister_ok h
    rw [kind_of_registerOf? hrm]
    exact .compareRegister ⟨dataN, rfl⟩ ⟨dataM, same operand (by simp)⟩ fields
  · obtain ⟨source, hsource, rest⟩ := bind_eq_ok.mp h
    obtain ⟨rfl, stackN⟩ := asStack_ok hsource
    obtain ⟨value, hvalue, rest⟩ := bind_eq_ok.mp rest
    obtain ⟨immediate, shifted, fields, rfl⟩ := addSubImmediate_ok rest
    exact .compareImmediate ⟨stackN, rfl⟩ (value_ok hvalue) fields

theorem exists_form_test (h : Selection.test site operands = .ok instruction) :
    ∃ reading, Reading.of? (operands.map (·.kind)) = some reading ∧
      Form site.symbols .test reading instruction := by
  rw [Selection.test] at h
  split at h
  · cases h
  rename_i left right modifier hcomparands
  obtain ⟨rn, hrn, h⟩ := bind_eq_ok.mp h
  obtain ⟨shift, hshift, h⟩ := bind_eq_ok.mp h
  obtain ⟨source, dataN, h⟩ := bind_eq_ok.mp h
  obtain ⟨rm, hrm, h⟩ := bind_eq_ok.mp h
  obtain ⟨width, hwidth, h⟩ := bind_eq_ok.mp h
  have reading := Reading.of_comparands hcomparands (register_ok hrn) (shift?_ok hshift)
  obtain ⟨rfl, dataN⟩ := asData_ok dataN
  obtain ⟨kindM, dataM⟩ := dataRegister_ok hrm
  obtain ⟨rfl, same⟩ := sameWidth_ok hwidth
  obtain ⟨kind, amount, fields, rfl⟩ := logicalRegister_ok h
  refine ⟨_, reading, ?_⟩
  rw [kindM]
  exact .test ⟨dataN, rfl⟩ ⟨dataM, same rm (by simp)⟩ fields

theorem exists_form_logical {name : LogicalName}
    (h : Selection.logical site name operands = .ok instruction) :
    ∃ reading, Reading.of? (operands.map (·.kind)) = some reading ∧
      Form site.symbols (.logical name) reading instruction := by
  rw [Selection.logical] at h
  split at h
  · cases h
  rename_i arrangement harrange
  obtain ⟨rd, hrd, h⟩ := bind_eq_ok.mp h
  obtain ⟨rn, hrn, h⟩ := bind_eq_ok.mp h
  obtain ⟨kindD, dataD⟩ := dataRegister_ok hrd
  obtain ⟨kindN, dataN⟩ := firstSource_ok (fun name ↦ name.isStackPointer = false)
    (fun _ _ ↦ dataRegister_ok) dataD hrn
  split at h
  · cases h
  rename_i rm hrm
  obtain ⟨operand, dataM, h⟩ := bind_eq_ok.mp h
  obtain ⟨width, hwidth, h⟩ := bind_eq_ok.mp h
  obtain ⟨shift, hshift, h⟩ := bind_eq_ok.mp h
  obtain ⟨rfl, dataM⟩ := asData_ok dataM
  obtain ⟨rfl, same⟩ := sameWidth_ok hwidth
  obtain ⟨kind, amount, fields, rfl⟩ := logicalRegister_ok h
  refine ⟨_, Reading.of_arrange harrange kindD kindN (shift?_ok hshift), ?_⟩
  rw [kind_of_registerOf? hrm]
  exact .logical ⟨dataD, rfl⟩ ⟨dataN, same rn (by simp)⟩ ⟨dataM, same operand (by simp)⟩ fields

theorem unary_ok {select : Width → Reg → Reg → Option ShiftOperand → Selected Instruction}
    (h : unary site operands select = .ok instruction) :
    ∃ (d m : RegisterName) (shift : Option ShiftOperand),
      Reading.of? (operands.map (·.kind)) = some ⟨d, d, .register m, written shift⟩ ∧
      d.DataAt d.width ∧ m.DataAt d.width ∧
      select d.width d.number m.number shift = .ok instruction := by
  rw [unary] at h
  split at h
  · cases h
  rename_i destination source modifier hcomparands
  obtain ⟨rd, hrd, h⟩ := bind_eq_ok.mp h
  obtain ⟨rm, hrm, h⟩ := bind_eq_ok.mp h
  obtain ⟨width, hwidth, h⟩ := bind_eq_ok.mp h
  obtain ⟨shift, hshift, h⟩ := bind_eq_ok.mp h
  obtain ⟨kindD, dataD⟩ := dataRegister_ok hrd
  obtain ⟨kindM, dataM⟩ := dataRegister_ok hrm
  obtain ⟨rfl, same⟩ := sameWidth_ok hwidth
  have reading := Reading.of_comparands hcomparands kindD (shift?_ok hshift)
  rw [kindM] at reading
  exact ⟨rd.name, rm.name, shift, reading, ⟨dataD, rfl⟩, ⟨dataM, same rm (by simp)⟩, h⟩

theorem exists_form_negate (h : Selection.negate site operands = .ok instruction) :
    ∃ reading, Reading.of? (operands.map (·.kind)) = some reading ∧
      Form site.symbols .negate reading instruction := by
  obtain ⟨d, m, shift, reading, dataD, dataM, h⟩ := unary_ok h
  obtain ⟨linear, amount, fields, rfl⟩ := addSubRegister_ok h
  exact ⟨_, reading, .negate dataD dataM fields⟩

theorem exists_form_invert (h : Selection.invert site operands = .ok instruction) :
    ∃ reading, Reading.of? (operands.map (·.kind)) = some reading ∧
      Form site.symbols .invert reading instruction := by
  obtain ⟨d, m, shift, reading, dataD, dataM, h⟩ := unary_ok h
  obtain ⟨kind, amount, fields, rfl⟩ := logicalRegister_ok h
  exact ⟨_, reading, .invert dataD dataM fields⟩

/-- A value that is a constant is not written as a shift. -/
theorem isShift_eq_false {operand : Operand} {value : Int}
    (h : operand.kind.constant? site.symbols = some value) : isShift operand = false := by
  rw [isShift]
  split
  · rename_i hkind
    rw [hkind] at h
    cases h
  · rfl

theorem isShift_eq_false_of_register {operand : Operand} {name : RegisterName}
    (h : operand.kind = .register name) : isShift operand = false := by
  rw [isShift, h]

theorem exists_form_shift {kind : ShiftKind}
    (h : Selection.shift site kind operands = .ok instruction) :
    ∃ reading, Reading.of? (operands.map (·.kind)) = some reading ∧
      Form site.symbols (.shift kind) reading instruction := by
  rw [Selection.shift] at h
  split at h
  · cases h
  rename_i destination first second hbinary
  obtain ⟨rd, hrd, h⟩ := bind_eq_ok.mp h
  obtain ⟨kindD, dataD⟩ := dataRegister_ok hrd
  obtain ⟨rn, kindN, dataN, h⟩ := first_ok dataD h
  split at h
  · rename_i rm hrm
    obtain ⟨operand, dataM, h⟩ := bind_eq_ok.mp h
    obtain ⟨width, hwidth, h⟩ := bind_eq_ok.mp h
    obtain ⟨rfl, dataM⟩ := asData_ok dataM
    obtain ⟨rfl, same⟩ := sameWidth_ok hwidth
    cases pure_eq_ok.mp h
    have kindM := kind_of_registerOf? hrm
    have reading :=
      Reading.of_binary hbinary kindD kindN (isShift_eq_false_of_register kindM)
    refine ⟨_, reading, ?_⟩
    rw [kindM]
    exact .shiftRegister ⟨dataD, rfl⟩ ⟨dataN, same rn (by simp)⟩ ⟨dataM, same operand (by simp)⟩
  · obtain ⟨width, hwidth, h⟩ := bind_eq_ok.mp h
    obtain ⟨value, hvalue, h⟩ := bind_eq_ok.mp h
    obtain ⟨index, hindex, h⟩ := bind_eq_ok.mp h
    obtain ⟨rfl, same⟩ := sameWidth_ok hwidth
    cases pure_eq_ok.mp h
    have constant := value_ok hvalue
    rw [shiftAmount_ok hindex] at constant
    exact ⟨_, Reading.of_binary hbinary kindD kindN (isShift_eq_false constant),
      .shiftConstant ⟨dataD, rfl⟩ ⟨dataN, same rn (by simp)⟩ constant⟩

theorem binary_ok {select : Width → Reg → Reg → Reg → Instruction}
    (h : binary site operands select = .ok instruction) :
    ∃ d n m : RegisterName,
      Reading.of? (operands.map (·.kind)) = some ⟨d, n, .register m, none⟩ ∧
      d.DataAt d.width ∧ n.DataAt d.width ∧ m.DataAt d.width ∧
      instruction = select d.width m.number n.number d.number := by
  rw [binary] at h
  split at h
  · cases h
  rename_i destination first second hbinary
  obtain ⟨rd, hrd, h⟩ := bind_eq_ok.mp h
  obtain ⟨kindD, dataD⟩ := dataRegister_ok hrd
  obtain ⟨rn, kindN, dataN, h⟩ := first_ok dataD h
  obtain ⟨rm, hrm, h⟩ := bind_eq_ok.mp h
  obtain ⟨width, hwidth, h⟩ := bind_eq_ok.mp h
  obtain ⟨kindM, dataM⟩ := dataRegister_ok hrm
  obtain ⟨rfl, same⟩ := sameWidth_ok hwidth
  have reading := Reading.of_binary hbinary kindD kindN (isShift_eq_false_of_register kindM)
  rw [kindM] at reading
  exact ⟨rd.name, rn.name, rm.name, reading, ⟨dataD, rfl⟩, ⟨dataN, same rn (by simp)⟩,
    ⟨dataM, same rm (by simp)⟩, (pure_eq_ok.mp h).symm⟩

theorem exists_form_divide {signed : Bool}
    (h : Selection.divide site signed operands = .ok instruction) :
    ∃ reading, Reading.of? (operands.map (·.kind)) = some reading ∧
      Form site.symbols (.divide signed) reading instruction := by
  obtain ⟨d, n, m, reading, dataD, dataN, dataM, rfl⟩ := binary_ok h
  exact ⟨_, reading, .divide dataD dataN dataM⟩

theorem exists_form_multiply (h : Selection.multiply site operands = .ok instruction) :
    ∃ reading, Reading.of? (operands.map (·.kind)) = some reading ∧
      Form site.symbols .multiply reading instruction := by
  obtain ⟨d, n, m, reading, dataD, dataN, dataM, rfl⟩ := binary_ok h
  exact ⟨_, reading, .multiply dataD dataN dataM⟩

theorem moveImmediate_ok {value : Int} (h : moveImmediate width rd value = .ok instruction) :
    ∃ move, WindowMove.ofValue? (BitVec.ofInt width.bits value) = some move ∧
      instruction = .moveWide width move.op move.window move.immediate rd := by
  rw [moveImmediate] at h
  split at h
  · cases h
  split at h
  · cases h
  rename_i move fits
  cases h
  exact ⟨move, fits, rfl⟩

theorem window_ok {window : Fin (width.bits / 16)} (h : Selection.window width shift = .ok window) :
    (written shift).getD (.lsl, 0) = (ShiftKind.lsl, ((16 * window.val : Nat) : Int)) := by
  cases shift with
  | none =>
    cases h
    rfl
  | some shift =>
    simp only [Selection.window] at h
    split at h
    · rename_i place
      cases h
      obtain ⟨kind, aligned, low, -⟩ := place
      simp only [written, Option.map_some, Option.getD_some, kind, Prod.mk.injEq, true_and]
      omega
    · cases h

theorem exists_form_move (h : Selection.move site operands = .ok instruction) :
    ∃ reading, Reading.of? (operands.map (·.kind)) = some reading ∧
      Form site.symbols .move reading instruction := by
  unfold Selection.move at h
  split at h
  · rename_i destination source
    obtain ⟨rd, hrd, h⟩ := bind_eq_ok.mp h
    have kindD := register_ok hrd
    have reading : Reading.of? ([destination, source].map (·.kind)) =
        some ⟨rd.name, rd.name, source.kind, none⟩ := by
      simp [Reading.of?, kindD]
    refine ⟨_, reading, ?_⟩
    split at h
    · rename_i rm hrm
      rw [kind_of_registerOf? hrm]
      obtain ⟨width, hwidth, h⟩ := bind_eq_ok.mp h
      obtain ⟨rfl, same⟩ := sameWidth_ok hwidth
      have widthM := same rm (by simp)
      split at h
      · obtain ⟨target, htarget, rest⟩ := bind_eq_ok.mp h
        obtain ⟨operand, hoperand, result⟩ := bind_eq_ok.mp rest
        cases pure_eq_ok.mp result
        obtain ⟨rfl, stackD⟩ := asStack_ok htarget
        obtain ⟨rfl, stackM⟩ := asStack_ok hoperand
        exact .moveStack ⟨stackD, rfl⟩ ⟨stackM, widthM⟩
      · rename_i neither
        obtain ⟨dataD, dataM⟩ := Bool.or_eq_false_iff.mp (Bool.eq_false_iff.mpr neither)
        cases pure_eq_ok.mp h
        exact .moveRegister ⟨dataD, rfl⟩ ⟨dataM, widthM⟩
    · split at h
      · cases h
      rename_i data
      obtain ⟨value, hvalue, h⟩ := bind_eq_ok.mp h
      have selected : moveImmediate rd.width rd.number value = .ok instruction := by
        cases hmove : moveImmediate rd.width rd.number value with
        | ok found =>
          rw [hmove] at h
          cases h
          rfl
        | error error =>
          rw [hmove] at h
          cases h
      obtain ⟨move, fits, rfl⟩ := moveImmediate_ok selected
      exact .moveConstant ⟨Bool.eq_false_iff.mpr data, rfl⟩ (value_ok hvalue) fits
  · cases h

theorem exists_form_moveWide {move : MoveWideOp}
    (h : Selection.moveWide site move operands = .ok instruction) :
    ∃ reading, Reading.of? (operands.map (·.kind)) = some reading ∧
      Form site.symbols (.moveWide move) reading instruction := by
  rw [Selection.moveWide] at h
  split at h
  · cases h
  rename_i destination source modifier hcomparands
  obtain ⟨rd, hrd, h⟩ := bind_eq_ok.mp h
  obtain ⟨value, hvalue, h⟩ := bind_eq_ok.mp h
  obtain ⟨kindD, dataD⟩ := dataRegister_ok hrd
  split at h
  · cases h
  rename_i range
  obtain ⟨shift, hshift, h⟩ := bind_eq_ok.mp h
  obtain ⟨window, hwindow, h⟩ := bind_eq_ok.mp h
  cases pure_eq_ok.mp h
  exact ⟨_, Reading.of_comparands hcomparands kindD (shift?_ok hshift),
    .moveWide ⟨dataD, rfl⟩ (value_ok hvalue) (by omega) (window_ok hwindow)⟩

/-- Every accepted data-processing statement has one of the forms. -/
theorem exists_form {mnemonic : Mnemonic} (data : mnemonic.isDataProcessing = true)
    (h : mnemonic.select site operands = .ok instruction) :
    ∃ reading, Reading.of? (operands.map (·.kind)) = some reading ∧
      Form site.symbols mnemonic reading instruction := by
  cases mnemonic with
  | addSub op setFlags => exact exists_form_addSub h
  | compare op => exact exists_form_compare h
  | test => exact exists_form_test h
  | logical name => exact exists_form_logical h
  | negate => exact exists_form_negate h
  | invert => exact exists_form_invert h
  | shift kind => exact exists_form_shift h
  | divide signed => exact exists_form_divide h
  | multiply => exact exists_form_multiply h
  | move => exact exists_form_move h
  | moveWide op => exact exists_form_moveWide h
  | _ => cases data

end

end DataProcessing

end MiniA64
