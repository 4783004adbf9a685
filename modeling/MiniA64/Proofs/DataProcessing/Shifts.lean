import MiniA64.Proofs.Assembly.Gaps.DataProcessing
import MiniA64.Proofs.DataProcessing.Execution

/-!
# Shifts by a constant

The shifts by a constant below the width are bit field moves, also a shift to the left by zero,
which is the move of the whole word. Every such statement is accepted. A step on its word shifts the
register as the shift by a register does that holds the amount.
-/

namespace MiniA64

namespace Selection

open DataProcessing

variable {site : Site} {operands : List Operand} {width : Width} {d n m : RegisterName}
  {second : OperandKind}

/-! ## Selecting a shift -/

theorem dataRegister_of_kind {operand : Operand} {name : RegisterName}
    (kind : operand.kind = .register name) (notStack : name.isStackPointer = false) :
    dataRegister operand = .ok ⟨name, operand.location⟩ := by
  have read : register operand = .ok ⟨name, operand.location⟩ := by
    rw [register, registerOf?, kind]
  rw [dataRegister, read]
  exact if_neg (by rw [notStack]; exact Bool.false_ne_true)

/-- The operands of an operation that is read without a shift, with the registers that they are:
the first source is the destination, or is written. -/
theorem binary?_of_reading (notStackD : d.isStackPointer = false)
    (notStackN : n.isStackPointer = false)
    (reading : Reading.of? (operands.map (·.kind)) = some ⟨d, n, second, none⟩) :
    ∃ destination first source rd rn, binary? operands = some (destination, first, source) ∧
      dataRegister destination = .ok rd ∧ first.elim (.ok rd) dataRegister = .ok rn ∧
      rd.name = d ∧ rn.name = n ∧ source.kind = second := by
  unfold Reading.of? at reading
  split at reading
  · rename_i kinds
    cases reading
    obtain ⟨_, _, _, _, rfl⟩ := exists_two kinds
    exact ⟨_, none, _, _, _, rfl, dataRegister_of_kind rfl notStackD, rfl, rfl, rfl, rfl⟩
  · cases reading
  · rename_i kinds
    cases reading
    obtain ⟨_, _, _, _, _, _, rfl⟩ := exists_three kinds
    exact ⟨_, some _, _, _, _, rfl, dataRegister_of_kind rfl notStackD,
      dataRegister_of_kind rfl notStackN, rfl, rfl, rfl⟩
  · cases reading
  · cases reading

/-- The shift by a constant below the width is accepted. -/
theorem select_shift_constant (kind : ShiftKind) (dataD : d.DataAt width) (dataN : n.DataAt width)
    {amount : Fin width.bits} (constant : second.constant? site.symbols = some (amount.val : Int))
    (reading : Reading.of? (operands.map (·.kind)) = some ⟨d, n, second, none⟩) :
    (Mnemonic.shift kind).select site operands =
      .ok (shiftImmediate kind width amount n.number d.number) := by
  obtain ⟨destination, first, source, rd, rn, arranged, readD, readN, rfl, rfl, rfl⟩ :=
    binary?_of_reading dataD.notStack dataN.notStack reading
  have holds : Gap.constant.Holds site source (amount.val : Int) := constant
  have widths : sameWidth site rd [rn] = .ok width := by
    rw [sameWidth, if_pos (by simp [RegisterOperand.width, dataD.width_eq, dataN.width_eq])]
    exact congrArg _ dataD.width_eq
  have index : shiftAmount width site.location amount.val = .ok amount :=
    shiftAmount_eq_ok_iff.mpr rfl
  rw [Mnemonic.select, Gap.shift_constant arranged readD holds.registerOf?_eq, readN]
  simp only [ok_bind, widths, holds.value_eq, index, pure_eq]
  rfl

/-- The shift by a register is accepted. -/
theorem select_shift_register (kind : ShiftKind) (dataD : d.DataAt width) (dataN : n.DataAt width)
    (dataM : m.DataAt width)
    (reading : Reading.of? (operands.map (·.kind)) = some ⟨d, n, .register m, none⟩) :
    (Mnemonic.shift kind).select site operands =
      .ok (.twoSource width (.shift kind) m.number n.number d.number) := by
  obtain ⟨destination, first, source, rd, rn, arranged, readD, readN, rfl, rfl, kindM⟩ :=
    binary?_of_reading dataD.notStack dataN.notStack reading
  have readM : registerOf? source = some ⟨m, source.location⟩ := by rw [registerOf?, kindM]
  have data : asData ⟨m, source.location⟩ = .ok ⟨m, source.location⟩ :=
    if_neg (by rw [dataM.notStack]; exact Bool.false_ne_true)
  have widths : sameWidth site rd [rn, ⟨m, source.location⟩] = .ok width := by
    rw [sameWidth, if_pos (by
      simp [RegisterOperand.width, dataD.width_eq, dataN.width_eq, dataM.width_eq])]
    exact congrArg _ dataD.width_eq
  have selected : Selection.shift site kind operands =
      first.elim (.ok rd) dataRegister >>= fun rn ↦ do
        let width ← sameWidth site rd [rn, ⟨m, source.location⟩]
        return .twoSource width (.shift kind) m.number rn.number rd.number := by
    rw [Selection.shift, arranged]
    simp only [readD, ok_bind, readM, data]
    cases first <;> rfl
  rw [Mnemonic.select, selected, readN]
  simp only [ok_bind, widths, pure_eq]
  rfl

end Selection

/-! ## Executing a shift -/

section

variable {κ φ τ : Type} [Console κ] [FileStore φ] [Clock τ]

/-- The machine one step later, with a register shifted into another one. -/
def Machine.afterShift (machine : Machine κ φ τ) (width : Width) (kind : ShiftKind) (amount : Nat)
    (d n : RegisterName) : Machine κ φ τ :=
  { machine with
    registers :=
      { machine.registers.store d
          (Arithmetic.shift kind (machine.registers.readAt width n.number) amount).toNat with
        pc := (machine.registers.pc + 4) % 2 ^ 64 }
    executed := machine.executed + 1 }

namespace DataProcessing

variable {machine : Machine κ φ τ} {width : Width} {kind : ShiftKind} {amount : Nat}
  {d n m : RegisterName}

/-- An instruction that shifts one register into another one does so in a step. -/
theorem step_of_execute {instruction : Instruction} (dataD : d.DataAt width)
    (executed : machine.execute instruction = (machine.write width d.number
      (Arithmetic.shift kind (machine.registers.readAt width n.number) amount)).proceed)
    (ready : machine.AboutToExecute instruction.encode) :
    machine.step = (true, machine.afterShift width kind amount d n) := by
  have running : (machine.execute instruction).status = .running := by
    rw [executed]
    exact ready.running
  rw [ready.step_eq running, executed, Machine.afterShift, Machine.write,
    machine.registers.writeAt_number dataD]
  simp only [Machine.proceed, Machine.jump, Machine.withRegisters, Machine.nextPc,
    Registers.pc_store, Registers.wrap]

/-- The shifts are bit field moves, apart from the rotation. -/
theorem exists_bitfield (kind : ShiftKind) (shifts : kind ≠ .ror) (amount : Fin width.bits) :
    ∃ (signed : Bool) (rotate last : Fin width.bits),
      (∀ rn rd, Selection.shiftImmediate kind width amount rn rd =
        .bitfield width signed rotate last rn rd) ∧
      ∀ value : BitVec width.bits,
        Arithmetic.bitfield signed value rotate last = Arithmetic.shift kind value amount := by
  cases kind with
  | lsl => exact ⟨_, _, _, fun _ _ ↦ rfl, fun value ↦ bitfield_eq_lsl value amount⟩
  | lsr => exact ⟨_, _, _, fun _ _ ↦ rfl, fun value ↦ bitfield_eq_lsr value amount⟩
  | asr => exact ⟨_, _, _, fun _ _ ↦ rfl, fun value ↦ bitfield_eq_asr value amount⟩
  | ror => exact absurd rfl shifts

theorem step_shift_constant (kind : ShiftKind) (amount : Fin width.bits) (dataD : d.DataAt width)
    (ready : machine.AboutToExecute
      (Selection.shiftImmediate kind width amount n.number d.number).encode) :
    machine.step = (true, machine.afterShift width kind amount d n) :=
  step_of_execute dataD (execute_shiftImmediate machine kind amount n.number d.number) ready

/-- A shift by a register shifts by what the register holds, modulo the width. -/
theorem step_shift_register (kind : ShiftKind) (dataD : d.DataAt width) (dataM : m.DataAt width)
    (holds : machine.registers.valueOf m % width.bits = amount)
    (ready : machine.AboutToExecute
      (Instruction.twoSource width (.shift kind) m.number n.number d.number).encode) :
    machine.step = (true, machine.afterShift width kind amount d n) := by
  refine step_of_execute dataD ?_ ready
  have shifted : Arithmetic.twoSource (.shift kind) (machine.registers.readAt width n.number)
      (machine.registers.readAt width m.number) =
        Arithmetic.shift kind (machine.registers.readAt width n.number) amount := by
    rw [Arithmetic.twoSource, ← shift_mod, machine.registers.toNat_readAt dataM, holds]
  rw [← shifted]
  rfl

/--
A bit field move puts each bit where it belongs. A shift by a constant below the width is accepted,
with the first source written or not and with the amount as a number or a name, and selects a bit
field move that is the shift for all values. A step on its word shifts the register and changes
nothing else, just like a step on the word of the shift by a register that holds the amount.
-/
theorem bitfield_exact (width : Width) :
    (∀ (signed : Bool) (value : Int) (rotate last : Fin width.bits) (i : Nat), i < width.bits →
      (Arithmetic.bitfield signed (BitVec.ofInt width.bits value) rotate last).getLsbD i =
        (Arithmetic.Field.moved width.bits rotate last).result signed (Arithmetic.bitOf value) i) ∧
      ∀ (kind : ShiftKind) (amount : Fin width.bits) (d n : RegisterName), kind ≠ .ror →
        d.DataAt width → n.DataAt width →
        ∃ (signed : Bool) (rotate last : Fin width.bits),
          (∀ value : BitVec width.bits,
            Arithmetic.bitfield signed value rotate last = Arithmetic.shift kind value amount) ∧
          (∀ (site : Site) (operands : List Operand) (second : OperandKind),
            Reading.of? (operands.map (·.kind)) = some ⟨d, n, second, none⟩ →
            second.constant? site.symbols = some (amount.val : Int) →
              (Mnemonic.shift kind).select site operands =
                .ok (.bitfield width signed rotate last n.number d.number)) ∧
          (∀ machine : Machine κ φ τ, machine.AboutToExecute
              (Instruction.bitfield width signed rotate last n.number d.number).encode →
            machine.step = (true, machine.afterShift width kind amount d n)) ∧
          ∀ m : RegisterName, m.DataAt width →
            (∀ (site : Site) (operands : List Operand),
              Reading.of? (operands.map (·.kind)) = some ⟨d, n, .register m, none⟩ →
                (Mnemonic.shift kind).select site operands =
                  .ok (.twoSource width (.shift kind) m.number n.number d.number)) ∧
            ∀ machine : Machine κ φ τ, machine.AboutToExecute
                (Instruction.twoSource width (.shift kind) m.number n.number d.number).encode →
              machine.registers.valueOf m % width.bits = amount →
                machine.step = (true, machine.afterShift width kind amount d n) := by
  refine ⟨fun signed value rotate last i inside ↦
    Arithmetic.getLsbD_bitfield_ofInt signed value last.isLt inside,
    fun kind amount d n shifts dataD dataN ↦ ?_⟩
  obtain ⟨signed, rotate, last, selected, moves⟩ := exists_bitfield kind shifts amount
  refine ⟨signed, rotate, last, moves, fun site operands second reading constant ↦ ?_,
    fun machine ready ↦ ?_, fun m dataM ↦ ⟨fun site operands reading ↦ ?_,
      fun machine ready holds ↦ step_shift_register kind dataD dataM holds ready⟩⟩
  · rw [← selected]
    exact Selection.select_shift_constant kind dataD dataN constant reading
  · rw [← selected] at ready
    exact step_shift_constant kind amount dataD ready
  · exact Selection.select_shift_register kind dataD dataN dataM reading

/-- A negative field that goes up, and a shift to the left by nothing, also by the zero register. -/
theorem bitfield_exact_nothing :
    let target : RegisterName := .general 1 .w64
    let site : Site := ⟨.empty, 0, default, "lsl"⟩
    let constant : List Operand := [⟨0, default, .register target⟩, ⟨0, default, .immediate 0⟩]
    let register : List Operand :=
      [⟨0, default, .register target⟩, ⟨0, default, .register (.zero .w64)⟩]
    let byRegister : Instruction := .twoSource .w64 (.shift .lsl) Reg.special 1 1
    (Arithmetic.bitfield true (BitVec.ofInt 32 (-8)) 28 3).getLsbD 31 = true ∧
      (∃ (signed : Bool) (rotate last : Fin 64),
        let byConstant : Instruction := .bitfield .w64 signed rotate last 1 1
        (Mnemonic.shift .lsl).select site constant = .ok byConstant ∧
          (Machine.ofWord byConstant.encode).step =
            (true, (Machine.ofWord byConstant.encode).afterShift .w64 .lsl 0 target target)) ∧
      (Mnemonic.shift .lsl).select site register = .ok byRegister ∧
      (Machine.ofWord byRegister.encode).step =
        (true, (Machine.ofWord byRegister.encode).afterShift .w64 .lsl 0 target target) := by
  intro target site constant register byRegister
  have moves := (@bitfield_exact BufferConsole MemoryStore ManualClock _ _ _ .w32).1
  have data : target.DataAt .w64 := ⟨rfl, rfl⟩
  obtain ⟨signed, rotate, last, -, selects, steps, registers⟩ :=
    (@bitfield_exact BufferConsole MemoryStore ManualClock _ _ _ .w64).2 .lsl ⟨0, by decide⟩
      target target (by decide) data data
  obtain ⟨selected, stepped⟩ := registers (.zero .w64) ⟨rfl, rfl⟩
  have sign := moves true (-8) ⟨28, by decide⟩ ⟨3, by decide⟩ 31 (by decide)
  exact ⟨sign.trans (by decide),
    ⟨signed, rotate, last, selects site constant (.immediate 0) rfl rfl,
      steps _ (Machine.aboutToExecute_ofWord _)⟩,
    selected site register rfl, stepped _ (Machine.aboutToExecute_ofWord _) rfl⟩

end DataProcessing

end

end MiniA64
