import MiniA64.Proofs.Disassembly.Sentences

/-!
# Texts of data-processing instructions

An instruction that has a more telling spelling is printed with it: a comparison, a negation, a
complement, a copy or a shift. Each of these spellings selects the instruction that it was chosen
for.
-/

namespace MiniA64

/-! ## Shifts of the last operand -/

/-- A shift as the last operand, if there is one. -/
def Written.modifiers (shift : Option (ShiftKind × Nat)) : List Written :=
  (shift.map fun shift ↦ Written.shift shift.1 shift.2).toList

/-- The shift that printing shows: none if it shifts nothing to the left. -/
def Written.shown (kind : ShiftKind) (amount : Nat) : Option (ShiftKind × Nat) :=
  if kind = .lsl ∧ amount = 0 then none else some (kind, amount)

theorem Written.text_modifiers (kind : ShiftKind) (amount : Nat) :
    (modifiers (shown kind amount)).map text = Printing.shift kind amount := by
  rw [shown, Printing.shift]
  split <;> rfl

/-- A statement that may have a shift after operands that are not in memory. -/
theorem Instruction.reads_of_modifiers {instruction : Instruction} {text : String}
    (mnemonic : Mnemonic) (operands : List Written) (shift : Option (ShiftKind × Nat))
    (names : Sentence.Names ⟨mnemonic, mnemonic.name, operands ++ Written.modifiers shift⟩
      instruction)
    (printed : Printing.line mnemonic.name
      ((operands ++ Written.modifiers shift).map Written.text) = text)
    (unconditional : mnemonic.condition? = none)
    (plain : (decide (operands.length ≤ 3) && operands.all (!·.isMemory)) = true) :
    instruction.Reads text := by
  apply reads_of mnemonic _ names printed unconditional
  obtain ⟨few, registers⟩ := Bool.and_eq_true_iff.mp plain
  have few := of_decide_eq_true few
  have all : (operands ++ Written.modifiers shift).all (!·.isMemory) = true := by
    cases shift with
    | none => simpa [Written.modifiers] using registers
    | some shift =>
      rw [List.all_append, registers]
      rfl
  have length : (operands ++ Written.modifiers shift).length ≤ 4 := by
    cases shift <;> simp [Written.modifiers] <;> omega
  apply Bool.and_eq_true_iff.mpr
  refine ⟨decide_eq_true length, List.all_eq_true.mpr ?_⟩
  intro operand member
  exact List.all_eq_true.mp all operand (List.dropLast_subset _ member)

namespace Selection

variable {width : Width} {shift : Option (ShiftKind × Nat)} {found : Option ShiftOperand}
  {amount : BitVec 6}

/-- The operands of a statement that may have a shift as its last one. -/
theorem exists_modifier {operands : List Operand}
    (h : operands.map (·.kind) = (Written.modifiers shift).map Written.kind) :
    ∃ modifier found, operands = modifier.toList ∧ shift? modifier = .ok found ∧
      written found = shift.map fun shift ↦ (shift.1, (shift.2 : Int)) := by
  cases shift with
  | none => exact ⟨none, none, List.map_eq_nil_iff.mp h, rfl, rfl⟩
  | some shift =>
    obtain ⟨s, l, rfl⟩ := exists_one h
    exact ⟨some _, some ⟨shift.1, shift.2, l⟩, rfl, rfl, rfl⟩

theorem exists_two_modifier {operands : List Operand} {a b : OperandKind}
    (h : operands.map (·.kind) = a :: b :: (Written.modifiers shift).map Written.kind) :
    ∃ s l s' l' modifier found,
      operands = ⟨s, l, a⟩ :: ⟨s', l', b⟩ :: modifier.toList ∧ shift? modifier = .ok found ∧
        written found = shift.map fun shift ↦ (shift.1, (shift.2 : Int)) := by
  obtain ⟨⟨s, l, _⟩, rest, rfl, rfl, kinds⟩ := List.map_eq_cons_iff.mp h
  obtain ⟨⟨s', l', _⟩, rest', rfl, rfl, kinds'⟩ := List.map_eq_cons_iff.mp kinds
  obtain ⟨modifier, found, rfl, hfound, shows⟩ := exists_modifier kinds'
  exact ⟨s, l, s', l', modifier, found, rfl, hfound, shows⟩

theorem exists_three_modifier {operands : List Operand} {a b c : OperandKind}
    (h : operands.map (·.kind) = a :: b :: c :: (Written.modifiers shift).map Written.kind) :
    ∃ s l s' l' s'' l'' modifier found,
      operands = ⟨s, l, a⟩ :: ⟨s', l', b⟩ :: ⟨s'', l'', c⟩ :: modifier.toList ∧
        shift? modifier = .ok found ∧
        written found = shift.map fun shift ↦ (shift.1, (shift.2 : Int)) := by
  obtain ⟨⟨s, l, _⟩, rest, rfl, rfl, kinds⟩ := List.map_eq_cons_iff.mp h
  obtain ⟨s', l', s'', l'', modifier, found, rfl, hfound, shows⟩ := exists_two_modifier kinds
  exact ⟨s, l, s', l', s'', l'', modifier, found, rfl, hfound, shows⟩

@[simp] theorem comparands?_toList (a b : Operand) (modifier : Option Operand) :
    comparands? (a :: b :: modifier.toList) = some (a, b, modifier) := by
  cases modifier <;> rfl

theorem arrange?_toList {c : Operand} (a b : Operand) (modifier : Option Operand)
    (noShift : isShift c = false) :
    arrange? (a :: b :: c :: modifier.toList) = some ⟨a, some b, c, modifier⟩ := by
  cases modifier with
  | none => simp [arrange?, noShift]
  | some modifier => rfl

@[simp] theorem arrange?_register (a b : Operand) (modifier : Option Operand) (slot : Nat)
    (location : Location) (name : RegisterName) :
    arrange? (a :: b :: ⟨slot, location, .register name⟩ :: modifier.toList) =
      some ⟨a, some b, ⟨slot, location, .register name⟩, modifier⟩ :=
  arrange?_toList a b modifier rfl

@[simp] theorem arrange?_immediate (a b : Operand) (modifier : Option Operand) (slot : Nat)
    (location : Location) (value : Int) :
    arrange? (a :: b :: ⟨slot, location, .immediate value⟩ :: modifier.toList) =
      some ⟨a, some b, ⟨slot, location, .immediate value⟩, modifier⟩ :=
  arrange?_toList a b modifier rfl

theorem shiftAmount_val {index : Fin width.bits} (location : Location) :
    shiftAmount width location index.val = .ok index := by
  have range : (0 : Int) ≤ index.val ∧ (index.val : Int) < width.bits := by omega
  rw [shiftAmount, dif_pos range]
  simp

theorem anyShift_shown {kind : ShiftKind} (below : amount.toNat < width.bits)
    (shows : written found =
      (Written.shown kind amount.toNat).map fun shift ↦ (shift.1, (shift.2 : Int))) :
    anyShift width found = .ok (kind, amount) := by
  rw [Written.shown] at shows
  split at shows
  · rename_i nothing
    obtain ⟨rfl, zero⟩ := nothing
    have same : amount = 0 := BitVec.eq_of_toNat_eq zero
    obtain rfl : found = none := Option.map_eq_none_iff.mp shows
    rw [same]
    rfl
  · obtain ⟨⟨kind, amount', location⟩, rfl, equal⟩ := Option.map_eq_some_iff.mp shows
    cases equal
    have accepted := @shiftAmount_val width ⟨amount.toNat, below⟩ location
    refine (congrArg (· >>= _) accepted).trans ?_
    simp

theorem linearShift_shown {kind : LinearShift} (below : amount.toNat < width.bits)
    (shows : written found =
      (Written.shown kind.kind amount.toNat).map fun shift ↦ (shift.1, (shift.2 : Int))) :
    linearShift width found = .ok (kind, amount) := by
  rw [Written.shown] at shows
  split at shows
  · rename_i nothing
    obtain ⟨left, zero⟩ := nothing
    have same : amount = 0 := BitVec.eq_of_toNat_eq zero
    obtain rfl : found = none := Option.map_eq_none_iff.mp shows
    cases kind <;> cases left
    rw [same]
    rfl
  · obtain ⟨⟨kind', amount', location⟩, rfl, equal⟩ := Option.map_eq_some_iff.mp shows
    obtain ⟨rfl, rfl⟩ := Prod.mk.inj equal
    have known : LinearShift.ofKind? kind.kind = some kind := by cases kind <;> rfl
    have accepted := @shiftAmount_val width ⟨amount.toNat, below⟩ location
    simp only [linearShift, known]
    refine (congrArg (· >>= _) accepted).trans ?_
    simp

/-- A shift by twelve places or none. -/
def twelve (shifted : Bool) : Option (ShiftKind × Nat) := if shifted then some (.lsl, 12) else none

theorem addSubImmediate_shown (width : Width) (op : AddSubOp) (setFlags shifted : Bool)
    (value : BitVec 12) (rn rd : Reg) (location : Location)
    (shows : written found = (twelve shifted).map fun shift ↦ (shift.1, (shift.2 : Int))) :
    addSubImmediate op setFlags width rd rn value.toNat found location =
      .ok (.addSubImmediate width op setFlags shifted value rn rd) := by
  have below := value.isLt
  have natural : ¬(value.toNat : Int) < 0 := by omega
  have small : (value.toNat : Int) ≤ 4095 := by omega
  have notLarge : ¬(4095 : Int) < value.toNat := by omega
  have same : BitVec.ofInt 12 (value.toNat : Int) = value := by simp
  cases shifted with
  | false =>
    obtain rfl : found = none := Option.map_eq_none_iff.mp shows
    simp [addSubImmediate, arithmeticField, natural, small]
  | true =>
    obtain ⟨⟨kind', amount', location⟩, rfl, equal⟩ := Option.map_eq_some_iff.mp shows
    cases equal
    simp [addSubImmediate, arithmeticField, natural, notLarge]

/-- The window that a wide move shows, if it is not the lowest one. -/
def placement (window : Fin (width.bits / 16)) : Option (ShiftKind × Nat) :=
  if window.val = 0 then none else some (.lsl, 16 * window.val)

theorem window_shown (window : Fin (width.bits / 16))
    (shows : written found = (placement window).map fun shift ↦ (shift.1, (shift.2 : Int))) :
    Selection.window width found = .ok window := by
  rw [placement] at shows
  split at shows
  · rename_i lowest
    obtain rfl : found = none := Option.map_eq_none_iff.mp shows
    exact congrArg Except.ok (Fin.ext lowest.symm)
  · obtain ⟨⟨kind', amount', location⟩, rfl, equal⟩ := Option.map_eq_some_iff.mp shows
    have below := window.isLt
    obtain ⟨rfl, rfl⟩ := Prod.mk.inj equal
    have multiple : ShiftKind.lsl = .lsl ∧ ((16 * window.val : Nat) : Int) % 16 = 0 ∧
        (0 : Int) ≤ (16 * window.val : Nat) ∧ ((16 * window.val : Nat) : Int) < width.bits :=
      ⟨rfl, by omega, by omega, by omega⟩
    refine (dif_pos multiple).trans (congrArg Except.ok (Fin.ext ?_))
    show (((16 * window.val : Nat) : Int) / 16).toNat = window.val
    omega

end Selection

namespace Instruction

open Printing Selection

variable {text : String} {width : Width}

/-! ## Immediate operands -/

theorem reads_addSubImmediate {op : AddSubOp} {setFlags shifted : Bool} {value : BitVec 12}
    {rn rd : Reg} (h : (addSubImmediate width op setFlags shifted value rn rd).text? = some text) :
    (addSubImmediate width op setFlags shifted value rn rd).Reads text := by
  cases h
  unfold Printing.addSubImmediate
  simp only
  split
  · rename_i copies
    simp only [Bool.and_eq_true, Bool.or_eq_true, decide_eq_true_eq, Bool.not_eq_true'] at copies
    obtain ⟨⟨⟨⟨rfl, rfl⟩, rfl⟩, rfl⟩, special⟩ := copies
    apply reads_of .move [.stack rd width, .stack rn width] ?_ rfl rfl rfl
    intro site operands kinds
    obtain ⟨s, l, s', l', rfl⟩ := exists_two kinds
    have stack : (rd.stackName width).isStackPointer = true ∨
        (rn.stackName width).isStackPointer = true := by
      rcases special with rfl | rfl
      · exact .inr rfl
      · exact .inl rfl
    simp [Mnemonic.select, Selection.move, Selection.moveRegister, Selection.sameWidth,
      Written.kind, RegisterOperand.width, RegisterOperand.number, stack]
  split
  · rename_i compares
    obtain ⟨rfl, special⟩ := Bool.and_eq_true_iff.mp compares
    cases of_decide_eq_true special
    apply reads_of_modifiers (.compare op) [.stack rn width, .immediate value.toNat]
      (twelve shifted) ?_ (by cases shifted <;> rfl) rfl rfl
    intro site operands kinds
    obtain ⟨s, l, s', l', modifier, found, rfl, hfound, shows⟩ := exists_two_modifier kinds
    have selected :=
      addSubImmediate_shown width op true shifted value rn Reg.special site.location shows
    simpa [Mnemonic.select, Selection.compare, Written.kind, RegisterOperand.width,
      RegisterOperand.number, hfound] using selected
  · cases setFlags with
    | false =>
      apply reads_of_modifiers (.addSub op false)
        [.stack rd width, .stack rn width, .immediate value.toNat] (twelve shifted) ?_
        (by cases shifted <;> rfl) rfl rfl
      intro site operands kinds
      obtain ⟨s, l, s', l', s'', l'', modifier, found, rfl, hfound, shows⟩ :=
        exists_three_modifier kinds
      have selected := addSubImmediate_shown width op false shifted value rn rd site.location shows
      simpa [Mnemonic.select, Selection.addSub, firstSource, sameWidth,
        Written.kind, RegisterOperand.width, RegisterOperand.number, hfound] using selected
    | true =>
      apply reads_of_modifiers (.addSub op true)
        [.data rd width, .stack rn width, .immediate value.toNat] (twelve shifted) ?_
        (by cases shifted <;> rfl) rfl rfl
      intro site operands kinds
      obtain ⟨s, l, s', l', s'', l'', modifier, found, rfl, hfound, shows⟩ :=
        exists_three_modifier kinds
      have selected := addSubImmediate_shown width op true shifted value rn rd site.location shows
      simpa [Mnemonic.select, Selection.addSub, firstSource, sameWidth,
        Written.kind, RegisterOperand.width, RegisterOperand.number, hfound] using selected

/-! ## Register operands -/

/-- The amounts that printing has a text for are those below the width. -/
theorem shown_iff {amount : BitVec 6} :
    ¬(width = .w32 && amount.toNat > 31) = true ↔ amount.toNat < width.bits := by
  have small := amount.isLt
  cases width with
  | w32 =>
    simp only [decide_true, Bool.true_and, decide_eq_true_eq, Width.bits]
    omega
  | w64 => simpa using small

theorem reads_addSubRegister {op : AddSubOp} {setFlags : Bool} {kind : LinearShift}
    {amount : BitVec 6} {rm rn rd : Reg}
    (h : (addSubRegister width op setFlags kind amount rm rn rd).text? = some text) :
    (addSubRegister width op setFlags kind amount rm rn rd).Reads text := by
  rw [text?, Printing.addSubRegister] at h
  split at h
  · cases h
  rename_i shown
  have below := shown_iff.mp shown
  rw [← Written.text_modifiers] at h
  have selected (rd rn rm : Reg) (op : AddSubOp) (setFlags : Bool) {found : Option ShiftOperand}
      (shows : written found = (Written.shown kind.kind amount.toNat).map fun shift ↦
        (shift.1, (shift.2 : Int))) :
      Selection.addSubRegister op setFlags width rd rn rm found =
        .ok (.addSubRegister width op setFlags kind amount rm rn rd) := by
    rw [Selection.addSubRegister, linearShift_shown below shows]
    rfl
  split at h
  · rename_i compares
    obtain ⟨rfl, special⟩ := Bool.and_eq_true_iff.mp compares
    cases of_decide_eq_true special
    cases h
    apply reads_of_modifiers (.compare op) [.data rn width, .data rm width]
      (Written.shown kind.kind amount.toNat) ?_ rfl rfl rfl
    intro site operands kinds
    obtain ⟨s, l, s', l', modifier, found, rfl, hfound, shows⟩ := exists_two_modifier kinds
    simp [Mnemonic.select, Selection.compare, sameWidth, Written.kind, RegisterOperand.width,
      RegisterOperand.number, hfound, selected _ _ _ _ _ shows]
  split at h
  · rename_i negates
    simp only [Bool.and_eq_true, decide_eq_true_eq, Bool.not_eq_true'] at negates
    obtain ⟨⟨rfl, rfl⟩, rfl⟩ := negates
    cases h
    apply reads_of_modifiers .negate [.data rd width, .data rm width]
      (Written.shown kind.kind amount.toNat) ?_ rfl rfl rfl
    intro site operands kinds
    obtain ⟨s, l, s', l', modifier, found, rfl, hfound, shows⟩ := exists_two_modifier kinds
    simp [Mnemonic.select, Selection.negate, Selection.unary, sameWidth, Written.kind,
      RegisterOperand.width, RegisterOperand.number, hfound, selected _ _ _ _ _ shows]
  · cases h
    apply reads_of_modifiers (.addSub op setFlags) [.data rd width, .data rn width, .data rm width]
      (Written.shown kind.kind amount.toNat) ?_ rfl rfl rfl
    intro site operands kinds
    obtain ⟨s, l, s', l', s'', l'', modifier, found, rfl, hfound, shows⟩ :=
      exists_three_modifier kinds
    simp [Mnemonic.select, Selection.addSub, firstSource, sameWidth, Written.kind,
      RegisterOperand.width, RegisterOperand.number, hfound, selected _ _ _ _ _ shows]

theorem operation_of_ofOperation? {op : LogicalOp} {invert : Bool} {name : LogicalName}
    (h : LogicalName.ofOperation? op invert = some name) : name.operation = (op, invert) := by
  have matched := List.find?_some h
  exact of_decide_eq_true matched

theorem reads_logical {op : LogicalOp} {invert : Bool} {kind : ShiftKind} {amount : BitVec 6}
    {rm rn rd : Reg} (h : (logical width op invert kind amount rm rn rd).text? = some text) :
    (logical width op invert kind amount rm rn rd).Reads text := by
  rw [text?, Printing.logical] at h
  split at h
  · cases h
  rename_i shown
  have below := shown_iff.mp shown
  rw [← Written.text_modifiers] at h
  split at h
  · cases h
  rename_i name known
  have operation := operation_of_ofOperation? known
  have selected (rd rn rm : Reg) {found : Option ShiftOperand}
      (shows : written found = (Written.shown kind amount.toNat).map fun shift ↦
        (shift.1, (shift.2 : Int))) :
      Selection.logicalRegister name width rd rn rm found =
        .ok (.logical width op invert kind amount rm rn rd) := by
    rw [Selection.logicalRegister, anyShift_shown below shows, operation]
    rfl
  split at h
  · rename_i copies
    simp only [Bool.and_eq_true, decide_eq_true_eq] at copies
    obtain ⟨⟨⟨rfl, rfl⟩, rfl⟩, rfl⟩ := copies
    cases operation
    cases h
    apply reads_of .move [.data rd width, .data rm width] ?_ rfl rfl rfl
    intro site operands kinds
    obtain ⟨s, l, s', l', rfl⟩ := exists_two kinds
    simp [Mnemonic.select, Selection.move, Selection.moveRegister, sameWidth, Written.kind,
      RegisterOperand.width, RegisterOperand.number]
  split at h
  · rename_i complements
    simp only [Bool.and_eq_true, decide_eq_true_eq] at complements
    obtain ⟨rfl, rfl⟩ := complements
    cases h
    apply reads_of_modifiers .invert [.data rd width, .data rm width]
      (Written.shown kind amount.toNat) ?_ rfl rfl rfl
    intro site operands kinds
    obtain ⟨s, l, s', l', modifier, found, rfl, hfound, shows⟩ := exists_two_modifier kinds
    simp [Mnemonic.select, Selection.invert, Selection.unary, sameWidth, Written.kind,
      RegisterOperand.width, RegisterOperand.number, hfound, selected _ _ _ shows]
  split at h
  · rename_i tests
    simp only [Bool.and_eq_true, decide_eq_true_eq] at tests
    obtain ⟨rfl, rfl⟩ := tests
    cases h
    apply reads_of_modifiers .test [.data rn width, .data rm width]
      (Written.shown kind amount.toNat) ?_ rfl rfl rfl
    intro site operands kinds
    obtain ⟨s, l, s', l', modifier, found, rfl, hfound, shows⟩ := exists_two_modifier kinds
    simp [Mnemonic.select, Selection.test, sameWidth, Written.kind, RegisterOperand.width,
      RegisterOperand.number, hfound, selected _ _ _ shows]
  · cases h
    apply reads_of_modifiers (.logical name) [.data rd width, .data rn width, .data rm width]
      (Written.shown kind amount.toNat) ?_ rfl rfl rfl
    intro site operands kinds
    obtain ⟨s, l, s', l', s'', l'', modifier, found, rfl, hfound, shows⟩ :=
      exists_three_modifier kinds
    simp [Mnemonic.select, Selection.logical, firstSource, sameWidth, Written.kind,
      RegisterOperand.width, RegisterOperand.number, hfound, selected _ _ _ shows]

/-! ## Constants, shifts and products -/

/-- A move whose window is shown, if it is not the lowest one. -/
theorem reads_placed {op : MoveWideOp} {window : Fin (width.bits / 16)} {value : BitVec 16}
    {rd : Reg} :
    (moveWide width op window value rd).Reads (line op.name (rd.name width ::
      immediate value.toNat ::
        if window.val = 0 then [] else ["lsl #" ++ toString (16 * window.val)])) := by
  apply reads_of_modifiers (.moveWide op) [.data rd width, .immediate value.toNat]
    (placement window) ?_ (by rw [placement]; split <;> rfl) rfl rfl
  intro site operands kinds
  obtain ⟨s, l, s', l', modifier, found, rfl, hfound, shows⟩ := exists_two_modifier kinds
  have small := value.isLt
  have range : ¬((value.toNat : Int) < 0 ∨ 0xFFFF < (value.toNat : Int)) := by omega
  have same : BitVec.ofInt 16 (value.toNat : Int) = value := by simp
  simp only [Mnemonic.select, Selection.moveWide, Written.kind, comparands?_toList,
    dataRegister_dataName, value_immediate, ok_bind, range, if_false, hfound, same, pure_eq]
  have sized : width = RegisterOperand.width ⟨rd.dataName width, l⟩ :=
    (rd.width_dataName width).symm
  have numbered : RegisterOperand.number ⟨rd.dataName width, l⟩ = rd := rd.number_dataName width
  rw [numbered]
  generalize RegisterOperand.width ⟨rd.dataName width, l⟩ = named at sized ⊢
  subst sized
  have windowed := window_shown window shows
  exact congrArg (· >>= fun window ↦ .ok (moveWide width op window value rd)) windowed

theorem range_toNat (value : BitVec width.bits) :
    -2 ^ (width.bits - 1) ≤ (value.toNat : Int) ∧ (value.toNat : Int) < 2 ^ width.bits := by
  have below := value.isLt
  cases width <;> simp only [Width.bits] at below ⊢ <;> omega

theorem range_toInt (value : BitVec width.bits) :
    -2 ^ (width.bits - 1) ≤ value.toInt ∧ value.toInt < 2 ^ width.bits := by
  have low := BitVec.le_toInt value
  have high := @BitVec.toInt_lt _ value
  cases width <;> simp only [Width.bits] at low high ⊢ <;> omega

/-- A constant is selected to the move that was chosen for it. -/
theorem moveImmediate_value {move : WindowMove width.bits} {value : Int}
    (range : -2 ^ (width.bits - 1) ≤ value ∧ value < 2 ^ width.bits)
    (same : BitVec.ofInt width.bits value = move.value)
    (chosen : WindowMove.ofValue? move.value = some move) (rd : Reg) :
    moveImmediate width rd value = .ok (.moveWide width move.op move.window move.immediate rd) := by
  have accepted : ¬(value < -2 ^ (width.bits - 1) ∨ 2 ^ width.bits ≤ value) := by omega
  rw [moveImmediate, if_neg accepted, same, chosen]

theorem reads_constant {move : WindowMove width.bits} {rd : Reg}
    (chosen : WindowMove.ofValue? move.value = some move) :
    (moveWide width move.op move.window move.immediate rd).Reads (line "mov" [rd.name width,
      immediate (if move.complement then move.value.toInt else (move.value.toNat : Int))]) := by
  let value := if move.complement then move.value.toInt else (move.value.toNat : Int)
  have range : -2 ^ (width.bits - 1) ≤ value ∧ value < 2 ^ width.bits := by
    unfold value
    split
    · exact range_toInt move.value
    · exact range_toNat move.value
  have same : BitVec.ofInt width.bits value = move.value := by
    unfold value
    split <;> simp
  apply reads_of .move [.data rd width, .immediate value] ?_ rfl rfl rfl
  intro site operands kinds
  obtain ⟨s, l, s', l', rfl⟩ := exists_two kinds
  have sized : RegisterOperand.width ⟨rd.dataName width, l⟩ = width := rd.width_dataName width
  have numbered : RegisterOperand.number ⟨rd.dataName width, l⟩ = rd := rd.number_dataName width
  have selected := moveImmediate_value range same chosen rd
  simp [Mnemonic.select, Selection.move, Written.kind, sized, numbered, selected]

theorem reads_moveWide {op : MoveWideOp} {window : Fin (width.bits / 16)} {value : BitVec 16}
    {rd : Reg} (h : (moveWide width op window value rd).text? = some text) :
    (moveWide width op window value rd).Reads text := by
  cases h
  cases op with
  | movk => exact reads_placed
  | movz =>
    simp only [Printing.moveWide]
    split
    · rename_i chosen
      exact @reads_constant width ⟨false, window, value⟩ rd chosen
    · exact reads_placed
  | movn =>
    simp only [Printing.moveWide]
    split
    · rename_i chosen
      exact @reads_constant width ⟨true, window, value⟩ rd chosen
    · exact reads_placed

theorem reads_shiftImmediate (kind : ShiftKind) (amount : Fin width.bits) (rn rd : Reg) :
    (shiftImmediate kind width amount rn rd).Reads
      (line kind.name [rd.name width, rn.name width, "#" ++ toString amount.val]) := by
  apply reads_of (.shift kind) [.data rd width, .data rn width, .count amount.val] ?_ rfl rfl rfl
  intro site operands kinds
  obtain ⟨s, l, s', l', s'', l'', rfl⟩ := exists_three kinds
  have accepted := @shiftAmount_val width amount site.location
  simp [Mnemonic.select, Selection.shift, binary?, sameWidth, Written.kind, RegisterOperand.width,
    RegisterOperand.number, accepted]

theorem reads_bitfield {signed : Bool} {rotate last : Fin width.bits} {rn rd : Reg}
    (h : (bitfield width signed rotate last rn rd).text? = some text) :
    (bitfield width signed rotate last rn rd).Reads text := by
  rw [text?, Printing.bitfield] at h
  split at h
  · rename_i full
    have below : width.bits - 1 < width.bits := Nat.sub_one_lt_of_lt width.bits_pos
    obtain rfl : last = ⟨width.bits - 1, below⟩ := Fin.ext full
    cases h
    cases signed with
    | false => exact reads_shiftImmediate .lsr rotate rn rd
    | true => exact reads_shiftImmediate .asr rotate rn rd
  split at h
  · rename_i partial' left
    simp only [Bool.and_eq_true, Bool.not_eq_true', decide_eq_true_eq] at left
    obtain ⟨rfl, rotated⟩ := left
    cases h
    have below := last.isLt
    have shifted : width.bits - 1 - last.val < width.bits := by omega
    have reads := reads_shiftImmediate .lsl ⟨_, shifted⟩ rn rd
    have fields : shiftImmediate .lsl width ⟨_, shifted⟩ rn rd =
        bitfield width false rotate last rn rd := by
      have amount : width.bits - (width.bits - 1 - last.val) = rotate.val := by omega
      have amount' : width.bits - 1 - (width.bits - 1 - last.val) = last.val := by omega
      simp only [shiftImmediate, amount, amount', Nat.mod_eq_of_lt rotate.isLt]
    rwa [fields] at reads
  · cases h

theorem reads_extract {low : Fin width.bits} {rm rn rd : Reg}
    (h : (extract width low rm rn rd).text? = some text) :
    (extract width low rm rn rd).Reads text := by
  rw [text?] at h
  split at h
  · rename_i rotates
    subst rotates
    cases h
    exact reads_shiftImmediate .ror low rm rd
  · cases h

/-- A statement of a destination and two sources, all of them registers. -/
theorem reads_registers {instruction : Instruction} {mnemonic : Mnemonic} {rm rn rd : Reg}
    (selected : ∀ site s l s' l' s'' l'', mnemonic.select site
      [⟨s, l, .register (rd.dataName width)⟩, ⟨s', l', .register (rn.dataName width)⟩,
        ⟨s'', l'', .register (rm.dataName width)⟩] = .ok instruction)
    (unconditional : mnemonic.condition? = none) :
    instruction.Reads (line mnemonic.name [rd.name width, rn.name width, rm.name width]) := by
  apply reads_of mnemonic [.data rd width, .data rn width, .data rm width] ?_ rfl unconditional rfl
  intro site operands kinds
  obtain ⟨s, l, s', l', s'', l'', rfl⟩ := exists_three kinds
  exact selected site s l s' l' s'' l''

theorem reads_divide (signed : Bool) (rm rn rd : Reg) :
    (twoSource width (if signed then .sdiv else .udiv) rm rn rd).Reads
      (line (Mnemonic.divide signed).name [rd.name width, rn.name width, rm.name width]) := by
  apply reads_registers ?_ rfl
  intro site s l s' l' s'' l''
  simp [Mnemonic.select, divide, binary, binary?, sameWidth, RegisterOperand.width,
    RegisterOperand.number]

theorem reads_twoSource {op : TwoSourceOp} {rm rn rd : Reg}
    (h : (twoSource width op rm rn rd).text? = some text) :
    (twoSource width op rm rn rd).Reads text := by
  cases h
  cases op with
  | udiv => exact reads_divide false rm rn rd
  | sdiv => exact reads_divide true rm rn rd
  | shift kind =>
    apply @reads_registers width _ (.shift kind) rm rn rd ?_ rfl
    intro site s l s' l' s'' l''
    simp [Mnemonic.select, Selection.shift, binary?, sameWidth, RegisterOperand.width,
      RegisterOperand.number]

theorem reads_multiplyAdd {subtract : Bool} {rm ra rn rd : Reg}
    (h : (multiplyAdd width subtract rm ra rn rd).text? = some text) :
    (multiplyAdd width subtract rm ra rn rd).Reads text := by
  rw [text?] at h
  split at h
  · rename_i product
    simp only [Bool.and_eq_true, Bool.not_eq_true', decide_eq_true_eq] at product
    obtain ⟨rfl, rfl⟩ := product
    cases h
    apply @reads_registers width _ .multiply rm rn rd ?_ rfl
    intro site s l s' l' s'' l''
    simp [Mnemonic.select, multiply, binary, binary?, sameWidth, RegisterOperand.width,
      RegisterOperand.number]
  · cases h

end Instruction

end MiniA64
