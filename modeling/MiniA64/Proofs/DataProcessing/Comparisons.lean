import MiniA64.Proofs.DataProcessing.Execution

/-!
# Conditions after a comparison

A comparison keeps the flags of a difference or of a sum and drops the result. Here each condition
on these flags gets its meaning in numbers. After a difference it compares the two residues, as
they are or as signed numbers. After a sum it compares the exact sum of the residues with the
modulus, and that of the signed numbers with zero.

The conditions on signed numbers rest on one fact about every number that has at most one bit more
than the width: the sign of its residue, turned around if the number overflows, is its own sign.
-/

namespace MiniA64

namespace Condition

/-- What a condition says of two residues when one has been subtracted from the other. The names
`hs` and `lo` are other spellings of `cs` and `cc`. -/
def OfDifference (width : Width) (a b : Nat) : Condition → Prop
  | eq => a = b
  | ne => a ≠ b
  | cs => b ≤ a
  | cc => a < b
  | mi => 2 ^ (width.bits - 1) ≤ width.reduce (a - b)
  | pl => width.reduce (a - b) < 2 ^ (width.bits - 1)
  | vs => width.isSigned (width.signed a - width.signed b) = false
  | vc => width.isSigned (width.signed a - width.signed b) = true
  | hi => b < a
  | ls => a ≤ b
  | ge => width.signed b ≤ width.signed a
  | lt => width.signed a < width.signed b
  | gt => width.signed b < width.signed a
  | le => width.signed a ≤ width.signed b
  | al | nv => True

/-- What a condition says of two residues when one has been added to the other. -/
def OfSum (width : Width) (a b : Nat) : Condition → Prop
  | eq => width.reduce (a + b) = 0
  | ne => width.reduce (a + b) ≠ 0
  | cs => 2 ^ width.bits ≤ a + b
  | cc => a + b < 2 ^ width.bits
  | mi => 2 ^ (width.bits - 1) ≤ width.reduce (a + b)
  | pl => width.reduce (a + b) < 2 ^ (width.bits - 1)
  | vs => width.isSigned (width.signed a + width.signed b) = false
  | vc => width.isSigned (width.signed a + width.signed b) = true
  | hi => 2 ^ width.bits < a + b
  | ls => a + b ≤ 2 ^ width.bits
  | ge => 0 ≤ width.signed a + width.signed b
  | lt => width.signed a + width.signed b < 0
  | gt => 0 < width.signed a + width.signed b
  | le => width.signed a + width.signed b ≤ 0
  | al | nv => True

/-- What a condition says after a comparison by a sum or by a difference. -/
def Compares (op : AddSubOp) (width : Width) (a b : Nat) (condition : Condition) : Prop :=
  match op with
  | .add => condition.OfSum width a b
  | .sub => condition.OfDifference width a b

end Condition

namespace DataProcessing

open Width

variable {width : Width} {a b : Nat}

/-! ## Signed numbers and their residues -/

theorem reduce_signed_sub :
    width.reduce (width.signed a - width.signed b) = width.reduce (a - b) := by
  simp only [Width.signed, Width.reduce]
  cases width <;> simp only [Width.bits] <;> omega

theorem reduce_signed_add :
    width.reduce (width.signed a + width.signed b) = width.reduce (a + b) := by
  simp only [Width.signed, Width.reduce]
  cases width <;> simp only [Width.bits] <;> omega

theorem signed_bounds (h : a < 2 ^ width.bits) :
    -2 ^ (width.bits - 1) ≤ width.signed a ∧ width.signed a < 2 ^ (width.bits - 1) := by
  simp only [Width.signed]
  cases width <;> simp only [Width.bits] at * <;> omega

/-- The flags that an exact signed number leaves: the sign of its residue, whether that is zero, and
whether the number overflows. The number has at most one bit more than the width. -/
structure Signs (flags : Flags) (width : Width) (exact : Int) : Prop where
  lower : -2 ^ width.bits ≤ exact
  upper : exact < 2 ^ width.bits
  n : flags.n = decide (2 ^ (width.bits - 1) ≤ width.reduce exact)
  z : flags.z = decide (width.reduce exact = 0)
  v : flags.v = !width.isSigned exact

namespace Signs

variable {flags : Flags} {exact : Int}

/-- The sign of the residue is not that of the number just if the number overflows. -/
theorem n_bne_v (signs : Signs flags width exact) :
    (flags.n != flags.v) = decide (exact < 0) := by
  obtain ⟨lower, upper, n, -, v⟩ := signs
  have within : width.isSigned exact =
      decide (-2 ^ (width.bits - 1) ≤ exact ∧ exact < 2 ^ (width.bits - 1)) := by
    rw [Width.isSigned, Bool.decide_and]
  rw [n, v, within, ← decide_not, Bool.eq_iff_iff, bne_iff_ne, ne_eq, decide_eq_decide,
    decide_eq_true_iff, Width.reduce]
  cases width <;> simp only [Width.bits] at * <;> omega

/-- The residue is zero for zero and for the lowest number alone. -/
theorem z_eq (signs : Signs flags width exact) :
    flags.z = decide (exact = 0 ∨ exact = -2 ^ width.bits) := by
  obtain ⟨lower, upper, -, z, -⟩ := signs
  rw [z, Bool.eq_iff_iff, Width.reduce]
  cases width <;> simp only [Width.bits] at * <;> simp <;> omega

theorem holds_lt (signs : Signs flags width exact) :
    Condition.lt.holds flags = true ↔ exact < 0 := by
  rw [Condition.holds, signs.n_bne_v, decide_eq_true_iff]

theorem holds_ge (signs : Signs flags width exact) :
    Condition.ge.holds flags = true ↔ 0 ≤ exact := by
  have lt := signs.holds_lt
  rw [Condition.holds, bne_iff_ne] at lt
  rw [Condition.holds, beq_iff_eq, ← Int.not_lt, ← lt, Classical.not_not]

theorem holds_le (signs : Signs flags width exact) :
    Condition.le.holds flags = true ↔ exact ≤ 0 := by
  have lower := signs.lower
  have positive : (0 : Int) < 2 ^ width.bits := Int.pow_pos (by decide)
  rw [Condition.holds, signs.n_bne_v, signs.z_eq, Bool.or_eq_true, decide_eq_true_iff,
    decide_eq_true_iff]
  omega

theorem holds_gt (signs : Signs flags width exact) :
    Condition.gt.holds flags = true ↔ 0 < exact := by
  have opposite : Condition.gt.holds flags = !Condition.le.holds flags := by
    simp only [Condition.holds, Bool.not_or, bne, Bool.not_not]
  rw [opposite, Bool.not_eq_true', Bool.eq_false_iff, ne_eq, signs.holds_le, Int.not_le]

end Signs

theorem signs_difference (ha : a < 2 ^ width.bits) (hb : b < 2 ^ width.bits) :
    Signs (differenceFlags width a b) width (width.signed a - width.signed b) := by
  have boundsA := signed_bounds ha
  have boundsB := signed_bounds hb
  have double : (2 : Int) ^ width.bits = 2 * 2 ^ (width.bits - 1) := by cases width <;> rfl
  refine ⟨by omega, by omega, ?_, ?_, rfl⟩ <;> rw [reduce_signed_sub] <;> rfl

theorem signs_sum (ha : a < 2 ^ width.bits) (hb : b < 2 ^ width.bits) :
    Signs (sumFlags width a b) width (width.signed a + width.signed b) := by
  have boundsA := signed_bounds ha
  have boundsB := signed_bounds hb
  have double : (2 : Int) ^ width.bits = 2 * 2 ^ (width.bits - 1) := by cases width <;> rfl
  refine ⟨by omega, by omega, ?_, ?_, rfl⟩ <;> rw [reduce_signed_add] <;> rfl

/-! ## Residues -/

theorem reduce_sub_eq_zero_iff (ha : a < 2 ^ width.bits) (hb : b < 2 ^ width.bits) :
    width.reduce (a - b) = 0 ↔ a = b := by
  rw [Width.reduce]
  cases width <;> simp only [Width.bits] at * <;> omega

theorem reduce_add_eq_zero_iff (ha : a < 2 ^ width.bits) (hb : b < 2 ^ width.bits) :
    width.reduce (a + b) = 0 ↔ a + b = 0 ∨ a + b = 2 ^ width.bits := by
  rw [Width.reduce]
  cases width <;> simp only [Width.bits] at * <;> omega

/-! ## Conditions -/

theorem holds_difference (ha : a < 2 ^ width.bits) (hb : b < 2 ^ width.bits)
    (condition : Condition) :
    condition.holds (differenceFlags width a b) = true ↔ condition.OfDifference width a b := by
  have signs := signs_difference ha hb
  have zero := reduce_sub_eq_zero_iff ha hb
  cases condition with
  | ge => exact signs.holds_ge.trans Int.sub_nonneg
  | lt => exact signs.holds_lt.trans ⟨Int.lt_of_sub_neg, Int.sub_neg_of_lt⟩
  | gt => exact signs.holds_gt.trans Int.sub_pos
  | le => exact signs.holds_le.trans ⟨Int.le_of_sub_nonpos, Int.sub_nonpos_of_le⟩
  | al | nv => exact iff_of_true rfl trivial
  | hi | ls =>
    simp only [Condition.holds, differenceFlags, Condition.OfDifference, zero, Bool.and_eq_true,
      Bool.or_eq_true, Bool.not_eq_true', decide_eq_true_iff, decide_eq_false_iff_not]
    omega
  | _ => simp [Condition.holds, differenceFlags, Condition.OfDifference, zero]

theorem holds_sum (ha : a < 2 ^ width.bits) (hb : b < 2 ^ width.bits) (condition : Condition) :
    condition.holds (sumFlags width a b) = true ↔ condition.OfSum width a b := by
  have signs := signs_sum ha hb
  have zero := reduce_add_eq_zero_iff ha hb
  cases condition with
  | ge => exact signs.holds_ge
  | lt => exact signs.holds_lt
  | gt => exact signs.holds_gt
  | le => exact signs.holds_le
  | al | nv => exact iff_of_true rfl trivial
  | hi | ls =>
    simp only [Condition.holds, sumFlags, Condition.OfSum, zero, Bool.and_eq_true,
      Bool.or_eq_true, Bool.not_eq_true', decide_eq_true_iff, decide_eq_false_iff_not]
    omega
  | _ => simp [Condition.holds, sumFlags, Condition.OfSum]

/-- What a condition compares after the flags of a sum or of a difference. -/
theorem holds_flagsOf (op : AddSubOp) (ha : a < 2 ^ width.bits) (hb : b < 2 ^ width.bits)
    (condition : Condition) :
    condition.holds (flagsOf op width a b) = true ↔ condition.Compares op width a b := by
  cases op with
  | add => exact holds_sum ha hb condition
  | sub => exact holds_difference ha hb condition

/-! ## Comparing statements -/

variable {κ φ τ : Type}

/-- The operands of a comparison are residues at its width. -/
theorem Form.operand_lt {symbols : SymbolTable} {op : AddSubOp} {reading : Reading}
    {instruction : Instruction} (form : Form symbols (.compare op) reading instruction)
    (machine : Machine κ φ τ) {operand : Nat}
    (known : reading.operand? symbols machine.registers = some operand) :
    machine.registers.valueOf reading.first < 2 ^ reading.width.bits ∧
      operand < 2 ^ reading.width.bits := by
  cases form with
  | compareRegister dataN dataM fields =>
    refine ⟨machine.registers.valueOf_lt _, ?_⟩
    rw [operand?_register fields, Option.some.injEq] at known
    rw [← known, ← toNat_shifted machine dataM fields]
    exact BitVec.isLt _
  | compareImmediate stackN constant fields =>
    refine ⟨machine.registers.valueOf_lt _, ?_⟩
    rw [operand?_immediate constant fields, Option.some.injEq] at known
    rw [← known, shifted_reduce, ← toNat_ofInt]
    exact BitVec.isLt _

/-- A comparison keeps the flags alone. -/
theorem Form.flags_compare [Console κ] [FileStore φ] [Clock τ] {symbols : SymbolTable}
    {op : AddSubOp} {reading : Reading} {instruction : Instruction}
    (form : Form symbols (.compare op) reading instruction) (machine : Machine κ φ τ) :
    ∃ operand, reading.operand? symbols machine.registers = some operand ∧
      (machine.execute instruction).status = machine.status ∧
      (machine.execute instruction).registers.flags =
        flagsOf op reading.width (machine.registers.valueOf reading.first) operand := by
  obtain ⟨operand, effect, known, means, executed⟩ := form.execute_eq machine
  refine ⟨operand, known, ?_, ?_⟩
  · rw [executed]
    rfl
  · rw [executed]
    cases op <;> cases means <;> rfl

/--
One step on the word of an accepted comparison sets flags on which every condition compares the
first operand with the second one: after `cmp` as residues or as signed numbers, and after `cmn`
their exact sums with the modulus or with zero.
-/
theorem step_comparison [Console κ] [FileStore φ] [Clock τ] {machine : Machine κ φ τ}
    {op : AddSubOp} {site : Site} {operands : List Operand} {instruction : Instruction}
    (accepted : (Mnemonic.compare op).select site operands = .ok instruction)
    (ready : machine.AboutToExecute instruction.encode) :
    ∃ reading operand, Reading.of? (operands.map (·.kind)) = some reading ∧
      reading.operand? site.symbols machine.registers = some operand ∧
      machine.registers.valueOf reading.first < 2 ^ reading.width.bits ∧
      operand < 2 ^ reading.width.bits ∧ machine.step.1 = true ∧
      ∀ condition : Condition, condition.holds machine.step.2.registers.flags = true ↔
        condition.Compares op reading.width (machine.registers.valueOf reading.first) operand := by
  obtain ⟨reading, arranged, form⟩ := exists_form rfl accepted
  obtain ⟨operand, known, status, flags⟩ := form.flags_compare machine
  obtain ⟨first, second⟩ := form.operand_lt machine known
  have stepped := ready.step_eq (status.trans ready.running)
  refine ⟨reading, operand, arranged, known, first, second, ?_, ?_⟩
  · rw [stepped]
  · intro condition
    rw [stepped, flags]
    exact holds_flagsOf op first second condition

/-- A negative immediate with a shift, which is compared by an addition of its magnitude. -/
theorem step_comparison_lowest :
    let instruction : Instruction := .addSubImmediate .w32 .add true true 1 1 31
    let site : Site := ⟨.empty, 0, default, "cmp"⟩
    let operands : List Operand := [⟨0, default, .register (.general 1 .w32)⟩,
      ⟨0, default, .immediate (-1)⟩, ⟨0, default, .shift .lsl 12⟩]
    let machine := (Machine.ofWord instruction.encode).write .w32 1 0x80000000
    (Mnemonic.compare .sub).select site operands = .ok instruction ∧
      machine.AboutToExecute instruction.encode ∧
      ∃ reading operand, Reading.of? (operands.map (·.kind)) = some reading ∧
        reading.operand? site.symbols machine.registers = some operand ∧
        machine.registers.valueOf reading.first < 2 ^ reading.width.bits ∧
        operand < 2 ^ reading.width.bits ∧ machine.step.1 = true ∧
        ∀ condition : Condition, condition.holds machine.step.2.registers.flags = true ↔
          condition.Compares .sub reading.width (machine.registers.valueOf reading.first)
            operand := by
  intro instruction site operands machine
  have accepted : (Mnemonic.compare .sub).select site operands = .ok instruction := rfl
  have ready : machine.AboutToExecute instruction.encode :=
    ⟨rfl, show (0 : Int) < 10000 by decide, rfl, ⟨0, rfl, show 0 < 4 by decide⟩, rfl⟩
  exact ⟨accepted, ready, step_comparison accepted ready⟩

end DataProcessing

end MiniA64
