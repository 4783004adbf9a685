import MiniA64.Proofs.DataProcessing.Forms
import MiniA64.Proofs.DataProcessing.Results
import MiniA64.Proofs.Machine.Stepping

/-!
# Executing data-processing statements

One step on the word of an accepted data-processing statement has the effect that the statement
means, for all contents of the registers. The forms of the selection are met with the results of
the arithmetic: a form with the zero register in place of an operand or of the destination is the
same computation with the name of that register.
-/

namespace MiniA64

namespace DataProcessing

open Selection (ShiftFields)
open Width

variable {κ φ τ : Type} (machine : Machine κ φ τ) {width : Width} {d n m : RegisterName}

/-! ## Writing a result -/

/-- A slot for data takes a result with its flags. -/
theorem write_eq (data : d.DataAt width) (flags : Option Flags) {value : BitVec width.bits}
    {result : Int} (h : value.toNat = width.reduce result) :
    (flags.elim machine machine.setFlags).write width d.number value =
      machine.withRegisters (Effect.apply ⟨some d, width, result, flags⟩ machine.registers) := by
  have written (registers : Registers) :
      registers.writeAt width d.number value = registers.store d (width.reduce result) := by
    rw [registers.writeAt_number data, h]
  cases flags with
  | none => exact congrArg machine.withRegisters (written machine.registers)
  | some flags => exact congrArg machine.withRegisters (written { machine.registers with flags })

theorem writeSp_eq (stack : d.StackAt width) {value : BitVec width.bits} {result : Int}
    (h : value.toNat = width.reduce result) :
    machine.writeSp width d.number value =
      machine.withRegisters (Effect.apply ⟨some d, width, result, none⟩ machine.registers) := by
  rw [Machine.writeSp, machine.registers.writeSpAt_number stack, h]
  rfl

/-! ## Operands -/

theorem toNat_shifted (dataM : m.DataAt width) {shift : Option (ShiftKind × Int)}
    {kind : ShiftKind} {amount : BitVec 6} (fields : ShiftFields width shift kind amount) :
    (machine.shifted width kind amount m.number).toNat =
      shifted width kind amount.toNat (machine.registers.valueOf m) := by
  rw [Machine.shifted, toNat_shift kind _ fields.below, machine.registers.toNat_readAt dataM]

theorem operand?_register {symbols : SymbolTable} {registers : Registers}
    {shift : Option (ShiftKind × Int)} {kind : ShiftKind} {amount : BitVec 6}
    (fields : ShiftFields d.width shift kind amount) :
    Reading.operand? ⟨d, n, .register m, shift⟩ symbols registers =
      some (shifted d.width kind amount.toNat (registers.valueOf m)) := by
  simp [Reading.operand?, Reading.shiftOrNone, Reading.width, fields.eq]

theorem operand?_constant {symbols : SymbolTable} {registers : Registers} {second : OperandKind}
    {value : Int} {shift : Option (ShiftKind × Int)}
    (constant : second.constant? symbols = some value) :
    Reading.operand? ⟨d, n, second, shift⟩ symbols registers =
      some (shifted d.width (shift.getD (.lsl, 0)).1 (shift.getD (.lsl, 0)).2.toNat
        (d.width.reduce value)) := by
  cases second with
  | register name => cases constant
  | _ => simp [Reading.operand?, Reading.shiftOrNone, Reading.width, constant]

theorem operand?_immediate {symbols : SymbolTable} {registers : Registers} {second : OperandKind}
    {value : Int} {shift : Option (ShiftKind × Int)} {immediate : BitVec 12} {scaled : Bool}
    (constant : second.constant? symbols = some value)
    (fields : ImmediateFields value shift immediate scaled) :
    Reading.operand? ⟨d, n, second, shift⟩ symbols registers =
      some (shifted d.width .lsl (shift.getD (.lsl, 0)).2.toNat (d.width.reduce value)) := by
  rw [operand?_constant constant, fields.kind]

theorem shifted_reduce (amount : Nat) (value : Int) :
    shifted width .lsl amount (width.reduce value) = width.reduce (value * 2 ^ amount) := by
  have positive : (0 : Int) < 2 ^ width.bits := Int.pow_pos (by decide)
  have residue : (width.reduce value : Int) = value % 2 ^ width.bits :=
    Int.toNat_of_nonneg (Int.emod_nonneg _ (Int.ne_of_gt positive))
  rw [shifted, residue, Width.reduce, Width.reduce, Int.mul_emod, Int.emod_emod, ← Int.mul_emod]

/-- A shift by zero changes nothing. -/
theorem shifted_zero {value : Nat} (h : value < 2 ^ width.bits) :
    shifted width .lsl 0 value = value := by
  rw [shifted, Int.pow_zero, Int.mul_one, reduce_natCast, Nat.mod_eq_of_lt h]

/-- A register that is not shifted is its own operand. -/
theorem operand?_plain {symbols : SymbolTable} (registers : Registers)
    (hwidth : m.width = d.width) :
    Reading.operand? ⟨d, n, .register m, none⟩ symbols registers =
      some (registers.valueOf m) := by
  have below := registers.valueOf_lt m
  rw [hwidth] at below
  rw [operand?_register (ShiftFields.none d.width)]
  exact congrArg some (shifted_zero below)

/-- A constant that is not shifted counts with its residue. -/
theorem operand?_residue {symbols : SymbolTable} {registers : Registers} {second : OperandKind}
    {value : Int} (constant : second.constant? symbols = some value) :
    Reading.operand? ⟨d, n, second, none⟩ symbols registers = some (d.width.reduce value) := by
  rw [operand?_constant constant]
  refine congrArg some (shifted_zero ?_)
  rw [← toNat_ofInt]
  exact BitVec.isLt _

/-- A constant that is shifted to a window is the value with the constant in this window. -/
theorem operand?_window {symbols : SymbolTable} {registers : Registers} {second : OperandKind}
    {shift : Option (ShiftKind × Int)} {window : Fin (d.width.bits / 16)} {value : Int}
    (constant : second.constant? symbols = some value) (range : 0 ≤ value ∧ value ≤ 0xFFFF)
    (place : shift.getD (.lsl, 0) = (ShiftKind.lsl, ((16 * window.val : Nat) : Int))) :
    Reading.operand? ⟨d, n, second, shift⟩ symbols registers =
      some ((BitVec.ofInt 16 value).toNat * 2 ^ (16 * window.val)) := by
  have field : (BitVec.ofInt 16 value).toNat = value.toNat := by
    rw [BitVec.toNat_ofInt]
    omega
  have product : value * 2 ^ (16 * window.val) =
      ((BitVec.ofInt 16 value).toNat * 2 ^ (16 * window.val) : Nat) := by
    rw [field, Int.natCast_mul, Int.toNat_of_nonneg range.1, Int.natCast_pow]
    rfl
  rw [operand?_constant constant, place, Int.toNat_natCast]
  apply congrArg some
  calc shifted d.width .lsl (16 * window.val) (d.width.reduce value)
    _ = d.width.reduce (value * 2 ^ (16 * window.val)) := shifted_reduce _ _
    _ = d.width.reduce (WindowMove.place (BitVec.ofInt 16 value) window).toNat := by
      rw [product, toNat_place]
    _ = (WindowMove.place (BitVec.ofInt 16 value) window).toNat := reduce_toNat _
    _ = (BitVec.ofInt 16 value).toNat * 2 ^ (16 * window.val) := toNat_place _ _

/-! ## Sums and differences -/

def exact (op : AddSubOp) (a b : Nat) : Int :=
  match op with
  | .add => a + b
  | .sub => a - b

def flagsOf (op : AddSubOp) (width : Width) (a b : Nat) : Flags :=
  match op with
  | .add => sumFlags width a b
  | .sub => differenceFlags width a b

theorem addSub_eq (op : AddSubOp) (a b : BitVec width.bits) :
    Arithmetic.addSub op a b =
      (BitVec.ofInt width.bits (exact op a.toNat b.toNat), flagsOf op width a.toNat b.toNat) := by
  cases op with
  | add => exact addSub_add a b
  | sub => exact addSub_sub a b

/-- The opposite operation with the magnitude of a negative constant. -/
theorem addSub_flip (op : AddSubOp) (a : BitVec width.bits) {magnitude : Nat}
    (positive : 0 < magnitude) (small : magnitude < 2 ^ (width.bits - 1)) :
    Arithmetic.addSub op.flip a (BitVec.ofNat width.bits magnitude) =
      (BitVec.ofInt width.bits (exact op a.toNat (width.reduce (-magnitude))),
        flagsOf op width a.toNat (width.reduce (-magnitude))) := by
  have fits : (BitVec.ofNat width.bits magnitude).toNat = magnitude := by
    rw [BitVec.toNat_ofNat, Nat.mod_eq_of_lt]
    exact Nat.lt_of_lt_of_le small (Nat.pow_le_pow_right (by decide) (Nat.sub_le _ _))
  rw [addSub_eq, fits]
  refine Prod.ext (BitVec.eq_of_toNat_eq ?_) ?_
  · rw [toNat_ofInt, toNat_ofInt]
    cases op with
    | add => rw [AddSubOp.flip, exact, exact, reduce_add_reduce, Int.sub_eq_add_neg]
    | sub => rw [AddSubOp.flip, exact, exact, reduce_sub_reduce, Int.sub_neg]
  · cases op with
    | add => exact differenceFlags_eq_sumFlags positive small
    | sub => exact sumFlags_eq_differenceFlags a.isLt positive small

/-- An immediate form adds or subtracts the residue of its constant. -/
theorem addSub_immediate (op : AddSubOp) (a : BitVec width.bits) {value : Int}
    {shift : Option (ShiftKind × Int)} {immediate : BitVec 12} {scaled : Bool}
    (fields : ImmediateFields value shift immediate scaled) :
    Arithmetic.addSub (if value < 0 then op.flip else op) a
        (BitVec.ofNat width.bits (immediate.toNat * if scaled then 2 ^ 12 else 1)) =
      (BitVec.ofInt width.bits (exact op a.toNat
        (shifted width .lsl (shift.getD (.lsl, 0)).2.toNat (width.reduce value))),
        flagsOf op width a.toNat
          (shifted width .lsl (shift.getD (.lsl, 0)).2.toNat (width.reduce value))) := by
  generalize hmagnitude : value.natAbs * 2 ^ (shift.getD (.lsl, 0)).2.toNat = magnitude
  have small : magnitude < 2 ^ (width.bits - 1) := by
    have field := immediate.isLt
    have bound : magnitude < 2 ^ 24 := by
      rw [← hmagnitude, ← fields.eq]
      split <;> omega
    exact Nat.lt_of_lt_of_le bound (by cases width <;> decide)
  rw [fields.eq, hmagnitude, shifted_reduce]
  rcases Int.lt_or_le value 0 with negative | nonnegative
  · have positive : 0 < magnitude := by
      rw [← hmagnitude]
      exact Nat.mul_pos (by omega) (Nat.two_pow_pos _)
    have product : value * 2 ^ (shift.getD (.lsl, 0)).2.toNat = -(magnitude : Int) := by
      rw [← hmagnitude, Int.natCast_mul, Int.ofNat_natAbs_of_nonpos (Int.le_of_lt negative),
        Int.neg_mul, Int.neg_neg, Int.natCast_pow]
      rfl
    rw [if_pos negative, product, addSub_flip op a positive small]
  · have product : value * 2 ^ (shift.getD (.lsl, 0)).2.toNat = (magnitude : Int) := by
      rw [← hmagnitude, Int.natCast_mul, Int.natAbs_of_nonneg nonnegative, Int.natCast_pow]
      rfl
    rw [if_neg (Int.not_lt.mpr nonnegative), product, addSub_eq, reduce_natCast,
      BitVec.toNat_ofNat]

/-! ## Instructions -/

theorem addSubRegister_eq (op : AddSubOp) (setFlags : Bool) (dataD : d.DataAt width)
    (dataN : n.DataAt width) (dataM : m.DataAt width) {shift : Option (ShiftKind × Int)}
    {linear : LinearShift} {amount : BitVec 6}
    (fields : ShiftFields width shift linear.kind amount) {b : Nat}
    (hb : b = shifted width linear.kind amount.toNat (machine.registers.valueOf m)) :
    machine.addSubRegister width op setFlags linear amount m.number n.number d.number =
      machine.withRegisters (Effect.apply
        ⟨some d, width, exact op (machine.registers.valueOf n) b,
          if setFlags then some (flagsOf op width (machine.registers.valueOf n) b) else none⟩
        machine.registers) := by
  have operation := addSub_eq op (machine.registers.readAt width n.number)
    (machine.shifted width linear.kind amount m.number)
  rw [machine.registers.toNat_readAt dataN, toNat_shifted machine dataM fields, ← hb] at operation
  rw [Machine.addSubRegister, operation, ← write_eq machine dataD _ (toNat_ofInt width _)]
  cases setFlags <;> rfl

theorem addSubImmediate_eq (op : AddSubOp) {setFlags scaled : Bool} {value : Int}
    {shift : Option (ShiftKind × Int)} {immediate : BitVec 12}
    (target : if setFlags then d.DataAt width else d.StackAt width) (stackN : n.StackAt width)
    (fields : ImmediateFields value shift immediate scaled) {b : Nat}
    (hb : b = shifted width .lsl (shift.getD (.lsl, 0)).2.toNat (width.reduce value)) :
    machine.addSubImmediate width (if value < 0 then op.flip else op) setFlags scaled immediate
        n.number d.number =
      machine.withRegisters (Effect.apply
        ⟨some d, width, exact op (machine.registers.valueOf n) b,
          if setFlags then some (flagsOf op width (machine.registers.valueOf n) b) else none⟩
        machine.registers) := by
  have operation := addSub_immediate op (machine.registers.readSpAt width n.number) fields
  rw [machine.registers.toNat_readSpAt stackN, ← hb] at operation
  rw [Machine.addSubImmediate, operation]
  cases setFlags with
  | true =>
    exact write_eq machine target (some (flagsOf op width (machine.registers.valueOf n) b))
      (toNat_ofInt width _)
  | false => exact writeSp_eq machine target (toNat_ofInt width _)

theorem logical_eq (name : LogicalName) (dataD : d.DataAt width) (dataN : n.DataAt width)
    (dataM : m.DataAt width) {shift : Option (ShiftKind × Int)} {kind : ShiftKind}
    {amount : BitVec 6} (fields : ShiftFields width shift kind amount) {b : Nat}
    (hb : b = shifted width kind amount.toNat (machine.registers.valueOf m)) :
    machine.logical width name.operation.1 name.operation.2 kind amount m.number n.number
        d.number =
      machine.withRegisters (Effect.apply
        ⟨some d, width, logicalResult width name (machine.registers.valueOf n) b,
          if name = .ands then
            some (logicalFlags width (logicalResult width name (machine.registers.valueOf n) b))
          else none⟩
        machine.registers) := by
  have operation := toNat_logical name (machine.registers.readAt width n.number)
    (machine.shifted width kind amount m.number)
  rw [machine.registers.toNat_readAt dataN, toNat_shifted machine dataM fields, ← hb] at operation
  have residue := reduce_toNat (Arithmetic.logical name.operation.1
    (machine.registers.readAt width n.number)
    (if name.operation.2 then ~~~(machine.shifted width kind amount m.number)
      else machine.shifted width kind amount m.number))
  rw [operation] at residue
  rw [← write_eq machine dataD _ (operation.trans residue.symm), ← operation, ← logicalFlags_eq]
  cases name <;> rfl

/-- A shift by a constant is a shift, whatever instruction stands for it. -/
theorem execute_shiftImmediate [Console κ] [FileStore φ] [Clock τ] (kind : ShiftKind)
    (index : Fin width.bits) (rn rd : Reg) :
    machine.execute (Selection.shiftImmediate kind width index rn rd) =
      (machine.write width rd
        (Arithmetic.shift kind (machine.registers.readAt width rn) index)).proceed := by
  cases kind with
  | lsl => rw [← bitfield_eq_lsl]; rfl
  | lsr => rw [← bitfield_eq_lsr]; rfl
  | asr => rw [← bitfield_eq_asr]; rfl
  | ror => rw [← extract_eq_ror]; rfl

/-- The effect of a reading of the operands. -/
theorem Form.execute_eq [Console κ] [FileStore φ] [Clock τ] {symbols : SymbolTable}
    {mnemonic : Mnemonic} {reading : Reading} {instruction : Instruction}
    (form : Form symbols mnemonic reading instruction) :
    ∃ operand effect, reading.operand? symbols machine.registers = some operand ∧
      effectOf? mnemonic reading (machine.registers.valueOf reading.first) operand =
        some effect ∧
      machine.execute instruction =
        (machine.withRegisters (effect.apply machine.registers)).proceed := by
  have zero (width : Width) : (RegisterName.zero width).DataAt width := ⟨rfl, rfl⟩
  cases form with
  | @addSubRegister op setFlags d n m shift linear amount dataD dataN dataM fields =>
    refine ⟨_, _, operand?_register fields, ?_, congrArg Machine.proceed
      (addSubRegister_eq machine op setFlags dataD dataN dataM fields rfl)⟩
    cases op <;> rfl
  | @addSubImmediate op setFlags scaled d n second value shift immediate target stackN constant
      fields =>
    refine ⟨_, _, operand?_immediate constant fields, ?_, congrArg Machine.proceed
      (addSubImmediate_eq machine op target stackN fields rfl)⟩
    cases op <;> rfl
  | @compareRegister op n m shift linear amount dataN dataM fields =>
    have executed :=
      addSubRegister_eq machine op true (zero n.width) dataN dataM fields rfl
    cases op <;> exact ⟨_, _, operand?_register fields, rfl, congrArg Machine.proceed executed⟩
  | @compareImmediate op scaled n second value shift immediate stackN constant fields =>
    have executed := @addSubImmediate_eq _ _ _ machine _ (.zero n.width) _ op true _ _ _ _
      (zero n.width) stackN fields _ rfl
    cases op <;>
      exact ⟨_, _, operand?_immediate constant fields, rfl, congrArg Machine.proceed executed⟩
  | @test n m shift kind amount dataN dataM fields =>
    exact ⟨_, _, operand?_register fields, rfl, congrArg Machine.proceed
      (logical_eq machine .ands (zero n.width) dataN dataM fields rfl)⟩
  | @logical name d n m shift kind amount dataD dataN dataM fields =>
    exact ⟨_, _, operand?_register fields, rfl, congrArg Machine.proceed
      (logical_eq machine name dataD dataN dataM fields rfl)⟩
  | @negate d m shift linear amount dataD dataM fields =>
    refine ⟨_, _, operand?_register fields, rfl, ?_⟩
    have executed := addSubRegister_eq machine .sub false dataD (zero d.width) dataM fields rfl
    have result : exact .sub (machine.registers.valueOf (.zero d.width))
        (shifted d.width linear.kind amount.toNat (machine.registers.valueOf m)) =
          -(shifted d.width linear.kind amount.toNat (machine.registers.valueOf m) : Int) :=
      Int.zero_sub _
    rw [result] at executed
    exact congrArg Machine.proceed executed
  | @invert d m shift kind amount dataD dataM fields =>
    refine ⟨_, _, operand?_register fields, rfl, ?_⟩
    have executed := logical_eq machine .orn dataD (zero d.width) dataM fields rfl
    have result : logicalResult d.width .orn (machine.registers.valueOf (.zero d.width))
        (shifted d.width kind amount.toNat (machine.registers.valueOf m)) =
          complement d.width (shifted d.width kind amount.toNat (machine.registers.valueOf m)) :=
      Nat.zero_or _
    rw [result] at executed
    exact congrArg Machine.proceed executed
  | @shiftRegister kind d n m dataD dataN dataM =>
    refine ⟨_, _, operand?_plain _ dataM.width_eq, rfl, congrArg Machine.proceed
      (write_eq machine dataD none (toNat_eq_reduce ?_))⟩
    rw [toNat_shift_register, machine.registers.toNat_readAt dataN,
      machine.registers.toNat_readAt dataM]
    rfl
  | @shiftConstant kind d n second index dataD dataN constant =>
    have residue : d.width.reduce (index.val : Int) = index.val := by
      rw [reduce_natCast, Nat.mod_eq_of_lt (Nat.lt_trans index.isLt Nat.lt_two_pow_self)]
    have operand := @operand?_residue d n symbols machine.registers second index.val constant
    rw [residue] at operand
    refine ⟨_, _, operand, rfl, ?_⟩
    rw [execute_shiftImmediate]
    refine congrArg Machine.proceed (write_eq machine dataD none (toNat_eq_reduce ?_))
    rw [toNat_shift kind _ index.isLt, machine.registers.toNat_readAt dataN]
    exact congrArg (shifted d.width kind · (machine.registers.valueOf n))
      (Nat.mod_eq_of_lt index.isLt).symm
  | @divide signed d n m dataD dataN dataM =>
    have readN := machine.registers.toNat_readAt dataN
    have readM := machine.registers.toNat_readAt dataM
    cases signed with
    | false =>
      refine ⟨_, _, operand?_plain _ dataM.width_eq, rfl, congrArg Machine.proceed
        (write_eq machine dataD none ?_)⟩
      exact (toNat_udiv _ _).trans (by rw [readN, readM])
    | true =>
      refine ⟨_, _, operand?_plain _ dataM.width_eq, rfl, congrArg Machine.proceed
        (write_eq machine dataD none ?_)⟩
      exact (toNat_sdiv _ _).trans (by rw [readN, readM]; rfl)
  | @multiply d n m dataD dataN dataM =>
    have readN := machine.registers.toNat_readAt dataN
    have readM := machine.registers.toNat_readAt dataM
    refine ⟨_, _, operand?_plain _ dataM.width_eq, rfl, congrArg Machine.proceed
      (write_eq machine dataD none ?_)⟩
    rw [machine.registers.readAt_special, toNat_multiply, readN, readM]
  | @moveRegister d m dataD dataM =>
    refine ⟨_, _, operand?_plain _ dataM.width_eq, rfl, ?_⟩
    have below := machine.registers.valueOf_lt m
    rw [dataM.width_eq] at below
    have executed := logical_eq machine .orr dataD (zero d.width) dataM (ShiftFields.none d.width)
      (shifted_zero below).symm
    have result : logicalResult d.width .orr (machine.registers.valueOf (.zero d.width))
        (machine.registers.valueOf m) = machine.registers.valueOf m :=
      Nat.zero_or _
    rw [result] at executed
    exact congrArg Machine.proceed executed
  | @moveStack d m stackD stackM =>
    refine ⟨_, _, operand?_plain _ stackM.width_eq, rfl, ?_⟩
    have nothing : ImmediateFields 0 none 0 false := ⟨rfl, rfl⟩
    have executed := @addSubImmediate_eq _ _ _ machine _ d m .add false _ _ _ _ stackD stackM
      nothing 0 (shifted_reduce 0 0).symm
    have result : exact .add (machine.registers.valueOf m) 0 = machine.registers.valueOf m :=
      Int.add_zero _
    rw [result] at executed
    exact congrArg Machine.proceed executed
  | @moveConstant d second value move dataD constant fits =>
    refine ⟨_, _, operand?_residue constant, rfl, congrArg Machine.proceed
      (write_eq machine dataD none (toNat_eq_reduce ?_))⟩
    rw [moveWide_eq_value, value_of_ofValue? fits, toNat_ofInt]
  | @moveWide d second value shift move window dataD constant range place =>
    have operand := @operand?_window d d symbols machine.registers second shift window value
      constant range place
    have low : (Reading.shiftOrNone ⟨d, d, second, shift⟩).2.toNat = 16 * window.val := by
      rw [Reading.shiftOrNone, place, Int.toNat_natCast]
    have old := machine.registers.toNat_readAt dataD
    cases move with
    | movz =>
      exact ⟨_, _, operand, rfl, congrArg Machine.proceed
        (write_eq machine dataD none (toNat_eq_reduce (toNat_movz _ _ _)))⟩
    | movn =>
      exact ⟨_, _, operand, rfl, congrArg Machine.proceed
        (write_eq machine dataD none (toNat_eq_reduce (toNat_movn _ _ _)))⟩
    | movk =>
      refine ⟨_, _, operand, rfl, congrArg Machine.proceed
        (write_eq machine dataD none (toNat_eq_reduce ?_))⟩
      rw [toNat_movk, old, low]

@[simp] theorem Effect.pc_apply (effect : Effect) (registers : Registers) :
    (effect.apply registers).pc = registers.pc := by
  rw [apply]
  split <;> simp

variable {machine : Machine κ φ τ}

/-- One step on the word of an accepted data-processing statement: the statement has a meaning,
the registers change by its effect, the program counter moves on, and nothing else changes. -/
theorem step_dataProcessing [Console κ] [FileStore φ] [Clock τ] {mnemonic : Mnemonic} {site : Site}
    {operands : List Operand} {instruction : Instruction}
    (data : mnemonic.isDataProcessing = true)
    (accepted : mnemonic.select site operands = .ok instruction)
    (ready : machine.AboutToExecute instruction.encode) :
    ∃ effect, effect? mnemonic (operands.map (·.kind)) site.symbols machine.registers =
        some effect ∧
      machine.step = (true, { machine with
        registers := { effect.apply machine.registers with
          pc := (machine.registers.pc + 4) % 2 ^ 64 }
        executed := machine.executed + 1 }) := by
  obtain ⟨reading, hreading, form⟩ := exists_form data accepted
  obtain ⟨operand, effect, hoperand, heffect, executed⟩ := form.execute_eq machine
  have running : (machine.execute instruction).status = .running := by
    rw [executed]
    exact ready.running
  refine ⟨effect, ?_, ?_⟩
  · simp only [effect?, hreading, hoperand, Option.bind_eq_bind, Option.bind_some, heffect]
  · calc machine.step
      _ = (true, { machine.execute instruction with
          executed := (machine.execute instruction).executed + 1 }) := ready.step_eq running
      _ = _ := by
        rw [executed]
        simp only [Machine.proceed, Machine.jump, Machine.withRegisters, Machine.nextPc,
          Effect.pc_apply, Registers.wrap]

/-- Comparing the first register with a negative constant adds the magnitude. -/
theorem step_compare_negative :
    let operands : List Operand :=
      [⟨0, default, .register (.general 1 .w64)⟩, ⟨0, default, .immediate (-5)⟩]
    let site : Site := ⟨.empty, 0, default, "cmp"⟩
    let instruction : Instruction := .addSubImmediate .w64 .add true false 5 1 31
    let machine := Machine.ofWord instruction.encode
    (Mnemonic.compare .sub).select site operands = .ok instruction ∧
      machine.AboutToExecute instruction.encode ∧
      ∃ effect, effect? (.compare .sub) (operands.map (·.kind)) site.symbols machine.registers =
          some effect ∧
        machine.step = (true, { machine with
          registers := { effect.apply machine.registers with
            pc := (machine.registers.pc + 4) % 2 ^ 64 }
          executed := machine.executed + 1 }) := by
  intro operands site instruction machine
  have data : (Mnemonic.compare .sub).isDataProcessing = true := rfl
  have accepted : (Mnemonic.compare .sub).select site operands = .ok instruction := rfl
  have ready : machine.AboutToExecute instruction.encode := Machine.aboutToExecute_ofWord _
  exact ⟨accepted, ready, step_dataProcessing data accepted ready⟩

end DataProcessing

end MiniA64
