import MiniA64.Proofs.DataProcessing.Constants
import MiniA64.Proofs.Machine.Frames

/-!
# Narrow computations

A word of the data-processing families whose top bit is clear computes on the low halves of the
registers. Two machines that agree on these halves, on the program and on where they stand in it
compute the same value and the same flags, whatever the upper halves hold. The value fits the low
half of its target, and a step changes nothing else.
-/

namespace MiniA64

/-! ## Computing instructions -/

namespace Instruction

/-- The operand width of an instruction that computes a value for a register. -/
def operandWidth? : Instruction → Option Width
  | addSubImmediate width _ _ _ _ _ _ | addSubRegister width _ _ _ _ _ _ _
  | logical width _ _ _ _ _ _ _ | moveWide width _ _ _ _ | bitfield width _ _ _ _ _
  | extract width _ _ _ _ | twoSource width _ _ _ _ | multiplyAdd width _ _ _ _ _ => some width
  | _ => none

/-- The instruction takes number 31 of its target for the stack pointer. -/
def targetsStack : Instruction → Bool
  | addSubImmediate _ _ setsFlags _ _ _ _ => !setsFlags
  | _ => false

/-- The registers with a narrow value in the target of the instruction. -/
def deliver (instruction : Instruction) (value : BitVec 32) (registers : Registers) : Registers :=
  match instruction.target? with
  | some rd =>
    if instruction.targetsStack then registers.writeSpAt .w32 rd value
    else registers.writeAt .w32 rd value
  | none => registers

/-- What the target of the instruction holds. -/
def targetValue (instruction : Instruction) (registers : Registers) : Int :=
  match instruction.target? with
  | some rd =>
    if instruction.targetsStack ∧ rd = Reg.special then registers.sp
    else (registers.read rd).toNat
  | none => 0

/-- What a narrow value is in the target of the instruction: the zero register drops it. -/
def placed (instruction : Instruction) (value : BitVec 32) : Int :=
  match instruction.target? with
  | some rd => if rd = Reg.special ∧ instruction.targetsStack = false then 0 else value.toNat
  | none => 0

theorem placed_bounds (instruction : Instruction) (value : BitVec 32) :
    0 ≤ instruction.placed value ∧ instruction.placed value < 2 ^ 32 := by
  have small := value.isLt
  unfold placed
  split
  · split <;> omega
  · decide

/-- The target holds the value after it has been delivered. -/
theorem targetValue_deliver (instruction : Instruction) (value : BitVec 32)
    (registers : Registers) :
    instruction.targetValue (instruction.deliver value registers) = instruction.placed value := by
  have general (rd : Reg) : ((registers.writeAt .w32 rd value).read rd).toNat =
      if rd = Reg.special then 0 else value.toNat :=
    @Registers.toNat_read_writeAt registers .w32 rd value
  unfold targetValue deliver placed
  cases instruction.target? with
  | none => rfl
  | some rd =>
    cases instruction.targetsStack with
    | false =>
      simp only [Bool.false_eq_true, if_false, false_and, and_true, general]
      split <;> rfl
    | true =>
      by_cases special : rd = Reg.special
      · have small : value.toNat < 2 ^ 64 := Nat.lt_trans value.isLt (by decide)
        simp [Registers.writeSpAt, Registers.writeSp, special, Nat.mod_eq_of_lt small]
      · have written : registers.writeSpAt .w32 rd value = registers.writeAt .w32 rd value :=
          if_neg special
        simp only [special, and_false, if_false, if_true, written, general, false_and]

theorem bit_of_operandWidth {instruction : Instruction} {width : Width}
    (computes : instruction.operandWidth? = some width) :
    Width.ofBit (instruction.encode.bit 31) = width := by
  cases instruction with
  | addSubImmediate | addSubRegister | logical | moveWide | bitfield | extract | twoSource
  | multiplyAdd =>
    cases computes
    simp (disch := decide) only [encode, Word.bit, getLsbD_append_high, -Nat.reduceAdd,
      -Nat.reduceSub]
    exact Width.ofBit_bit width
  | _ => cases computes

/-- A computing instruction is the one that its word encodes. -/
theorem encode_of_computes {word : Word} {instruction : Instruction}
    (decoded : decode word = .ok instruction) (computes : instruction.operandWidth?.isSome) :
    instruction.encode = word := by
  apply encode_of_decode decoded
  apply Bool.eq_false_iff.mpr
  intro extended
  cases decoded.symm.trans (Decoding.decode_eq_pair extended)
  cases computes

/-- The top bit of its word tells the operand width. -/
theorem operandWidth_of_decode {word : Word} {instruction : Instruction}
    (decoded : decode word = .ok instruction) (computes : instruction.operandWidth?.isSome) :
    instruction.operandWidth? = some (Width.ofBit (word.bit 31)) := by
  obtain ⟨width, known⟩ := Option.isSome_iff_exists.mp computes
  rw [known, ← bit_of_operandWidth known, encode_of_computes decoded computes]

end Instruction

/-! ## Machines that agree on the low halves -/

namespace Machine

variable {κ φ τ : Type}

/-- The machines agree on the program and their place in it, on the flags and the depth, and on the
low halves of all registers. -/
structure AgreeLow (first second : Machine κ φ τ) : Prop where
  memory : second.world.memory = first.world.memory
  pc : second.registers.pc = first.registers.pc
  flags : second.registers.flags = first.registers.flags
  depth : second.depth = first.depth
  general : ∀ reg : Reg, (second.registers.read reg).setWidth 32 =
    (first.registers.read reg).setWidth 32
  sp : second.registers.sp % 2 ^ 32 = first.registers.sp % 2 ^ 32

namespace AgreeLow

variable {first second : Machine κ φ τ}

theorem readAt (agree : first.AgreeLow second) (reg : Reg) :
    second.registers.readAt .w32 reg = first.registers.readAt .w32 reg :=
  agree.general reg

theorem readSpAt (agree : first.AgreeLow second) (reg : Reg) :
    second.registers.readSpAt .w32 reg = first.registers.readSpAt .w32 reg := by
  unfold Registers.readSpAt Registers.readSp
  split
  · have same := agree.sp
    apply BitVec.eq_of_toNat_eq
    simp only [BitVec.toNat_setWidth, BitVec.toNat_ofInt, Width.bits]
    omega
  · exact agree.general reg

/-- A machine that agrees with one that is about to execute a word is so as well. -/
theorem aboutToExecute (agree : first.AgreeLow second) {word : Word}
    (ready : first.AboutToExecute word) (running : second.status = .running)
    (below : second.executed < second.config.maxInstructions) : second.AboutToExecute word where
  running := running
  belowCeiling := below
  aligned := by
    rw [agree.pc]
    exact ready.aligned
  insideProgram := by
    rw [agree.memory, agree.pc]
    exact ready.insideProgram
  holds := by
    rw [agree.memory, agree.pc]
    exact ready.holds

/-- The same write to one register leaves the low halves in agreement. -/
theorem general_writeAt (agree : first.AgreeLow second) (rd : Reg) (value : BitVec 32) (reg : Reg) :
    ((second.registers.writeAt .w32 rd value).read reg).setWidth 32 =
      ((first.registers.writeAt .w32 rd value).read reg).setWidth 32 := by
  by_cases same : reg = rd
  · apply congrArg (BitVec.setWidth 32)
    apply BitVec.eq_of_toNat_eq
    rw [same, @Registers.toNat_read_writeAt _ .w32 rd value,
      @Registers.toNat_read_writeAt _ .w32 rd value]
  · rw [Registers.writeAt, Registers.writeAt, Registers.read_write_of_ne _ same,
      Registers.read_write_of_ne _ same]
    exact agree.general reg

theorem general_deliver (agree : first.AgreeLow second) (instruction : Instruction)
    (value : BitVec 32) (reg : Reg) :
    ((instruction.deliver value second.registers).read reg).setWidth 32 =
      ((instruction.deliver value first.registers).read reg).setWidth 32 := by
  unfold Instruction.deliver
  split
  · split
    · unfold Registers.writeSpAt Registers.writeSp
      split
      · exact agree.general reg
      · exact agree.general_writeAt _ value reg
    · exact agree.general_writeAt _ value reg
  · exact agree.general reg

theorem sp_deliver (agree : first.AgreeLow second) (instruction : Instruction)
    (value : BitVec 32) :
    (instruction.deliver value second.registers).sp % 2 ^ 32 =
      (instruction.deliver value first.registers).sp % 2 ^ 32 := by
  unfold Instruction.deliver
  split
  · split
    · unfold Registers.writeSpAt Registers.writeSp
      split
      · rfl
      · rw [Registers.sp_write, Registers.sp_write, agree.sp]
    · rw [Registers.writeAt, Registers.writeAt, Registers.sp_write, Registers.sp_write, agree.sp]
  · exact agree.sp

end AgreeLow

end Machine

/-! ## Results -/

namespace Instruction

/-- The value and the flags of a narrow computation. -/
def narrowResult (registers : Registers) : Instruction → BitVec 32 × Flags
  | addSubImmediate .w32 op setsFlags shifted immediate rn _ =>
    let operand := BitVec.ofNat 32 (immediate.toNat * if shifted then 2 ^ 12 else 1)
    let (value, flags) := Arithmetic.addSub op (registers.readSpAt .w32 rn) operand
    (value, if setsFlags then flags else registers.flags)
  | addSubRegister .w32 op setsFlags shift amount rm rn _ =>
    let operand := Arithmetic.shift shift.kind (registers.readAt .w32 rm) amount.toNat
    let (value, flags) := Arithmetic.addSub op (registers.readAt .w32 rn) operand
    (value, if setsFlags then flags else registers.flags)
  | logical .w32 op invert shift amount rm rn _ =>
    let shifted := Arithmetic.shift shift (registers.readAt .w32 rm) amount.toNat
    let operand := if invert then ~~~shifted else shifted
    let value := Arithmetic.logical op (registers.readAt .w32 rn) operand
    (value, if op = .ands then Arithmetic.logicalFlags value else registers.flags)
  | moveWide .w32 op window immediate rd =>
    (Arithmetic.moveWide op window immediate (registers.readAt .w32 rd), registers.flags)
  | bitfield .w32 signed rotate last rn _ =>
    (Arithmetic.bitfield signed (registers.readAt .w32 rn) rotate last, registers.flags)
  | extract .w32 low rm rn _ =>
    (Arithmetic.extract (registers.readAt .w32 rn) (registers.readAt .w32 rm) low,
      registers.flags)
  | twoSource .w32 op rm rn _ =>
    (Arithmetic.twoSource op (registers.readAt .w32 rn) (registers.readAt .w32 rm),
      registers.flags)
  | multiplyAdd .w32 subtract rm ra rn _ =>
    (Arithmetic.multiplyAdd subtract (registers.readAt .w32 ra) (registers.readAt .w32 rn)
      (registers.readAt .w32 rm), registers.flags)
  | _ => (0, registers.flags)

end Instruction

namespace Machine

variable {κ φ τ : Type}

/-- The upper halves of the registers take no part in a narrow computation. -/
theorem AgreeLow.narrowResult {first second : Machine κ φ τ} (agree : first.AgreeLow second)
    (instruction : Instruction) :
    instruction.narrowResult second.registers = instruction.narrowResult first.registers := by
  unfold Instruction.narrowResult
  split <;> simp only [agree.readAt, agree.readSpAt, agree.flags]

/-- The machine after an instruction that has delivered a value and set the flags. -/
def delivered (machine : Machine κ φ τ) (instruction : Instruction) (result : BitVec 32 × Flags) :
    Machine κ φ τ :=
  { machine with
    registers := { instruction.deliver result.1 machine.registers with
      flags := result.2
      pc := Registers.wrap (machine.registers.pc + 4) } }

/-- What is delivered to both machines leaves them in agreement. -/
theorem AgreeLow.delivered {first second : Machine κ φ τ} (agree : first.AgreeLow second)
    (instruction : Instruction) (result : BitVec 32 × Flags) :
    (first.delivered instruction result).AgreeLow (second.delivered instruction result) where
  memory := agree.memory
  pc := congrArg (fun pc ↦ Registers.wrap (pc + 4)) agree.pc
  flags := rfl
  depth := agree.depth
  general := agree.general_deliver instruction result.1
  sp := agree.sp_deliver instruction result.1

theorem proceed_write (machine : Machine κ φ τ) (flags : Flags) (rd : Reg) (value : BitVec 32) :
    ((machine.setFlags flags).write .w32 rd value).proceed = { machine with
      registers := { machine.registers.writeAt .w32 rd value with
        flags
        pc := Registers.wrap (machine.registers.pc + 4) } } := by
  unfold proceed jump nextPc write setFlags withRegisters Registers.writeAt Registers.write
  dsimp only
  split <;> rfl

theorem proceed_writeSp (machine : Machine κ φ τ) (rd : Reg) (value : BitVec 32) :
    (machine.writeSp .w32 rd value).proceed = { machine with
      registers := { machine.registers.writeSpAt .w32 rd value with
        flags := machine.registers.flags
        pc := Registers.wrap (machine.registers.pc + 4) } } := by
  unfold proceed jump nextPc writeSp withRegisters Registers.writeSpAt Registers.writeSp
    Registers.write
  dsimp only
  split
  · rfl
  · split <;> rfl

variable [Console κ] [FileStore φ] [Clock τ]

/-- A narrow computation delivers its value, sets the flags and goes on, and that is all. -/
theorem execute_narrow {instruction : Instruction}
    (narrow : instruction.operandWidth? = some .w32) (machine : Machine κ φ τ) :
    machine.execute instruction =
      machine.delivered instruction (instruction.narrowResult machine.registers) := by
  cases instruction with
  | addSubImmediate width op setsFlags shifted immediate rn rd =>
    cases narrow
    cases setsFlags with
    | true => exact machine.proceed_write _ rd _
    | false => exact machine.proceed_writeSp rd _
  | addSubRegister width op setsFlags shift amount rm rn rd =>
    cases narrow
    cases setsFlags with
    | true => exact machine.proceed_write _ rd _
    | false => exact machine.proceed_write machine.registers.flags rd _
  | logical width op invert shift amount rm rn rd =>
    cases narrow
    cases op with
    | ands => exact machine.proceed_write _ rd _
    | and | orr | eor => exact machine.proceed_write machine.registers.flags rd _
  | moveWide | bitfield | extract | twoSource | multiplyAdd =>
    cases narrow
    exact machine.proceed_write machine.registers.flags _ _
  | _ => cases narrow

theorem AboutToExecute.step_delivered {machine : Machine κ φ τ} {instruction : Instruction}
    (ready : machine.AboutToExecute instruction.encode)
    (narrow : instruction.operandWidth? = some .w32) :
    machine.step =
      (true, { machine.delivered instruction (instruction.narrowResult machine.registers) with
        executed := machine.executed + 1 }) := by
  have executed := execute_narrow narrow machine
  have runs : (machine.execute instruction).status = .running := by
    rw [executed]
    exact ready.running
  rw [ready.step_eq runs, executed]
  rfl

/--
A step on a word of the data-processing families with a clear top bit keeps the upper halves of the
registers out of what it computes. From two machines that agree on the low halves it delivers the
same narrow value with the same flags, goes on to the same address and changes nothing else, so that
they agree as before.
-/
theorem step_narrow {first second : Machine κ φ τ} {word : Word} {instruction : Instruction}
    (decoded : decode word = .ok instruction) (computes : instruction.operandWidth?.isSome)
    (narrow : word.bit 31 = false) (ready : first.AboutToExecute word)
    (running : second.status = .running) (below : second.executed < second.config.maxInstructions)
    (agree : first.AgreeLow second) :
    ∃ result : BitVec 32 × Flags,
      first.step = (true, { first.delivered instruction result with
        executed := first.executed + 1 }) ∧
      second.step = (true, { second.delivered instruction result with
        executed := second.executed + 1 }) ∧
      first.step.2.AgreeLow second.step.2 ∧
      instruction.targetValue second.step.2.registers =
        instruction.targetValue first.step.2.registers ∧
      0 ≤ instruction.targetValue first.step.2.registers ∧
      instruction.targetValue first.step.2.registers < 2 ^ 32 := by
  have encoded : instruction.encode = word := Instruction.encode_of_computes decoded computes
  have width : instruction.operandWidth? = some .w32 := by
    rw [Instruction.operandWidth_of_decode decoded computes, narrow]
    rfl
  subst encoded
  have firstStep := ready.step_delivered width
  have secondStep := (agree.aboutToExecute ready running below).step_delivered width
  -- The upper halves take no part, so the second machine computes what the first one does.
  rw [agree.narrowResult] at secondStep
  have target (machine : Machine κ φ τ) (result : BitVec 32 × Flags) :
      instruction.targetValue (machine.delivered instruction result).registers =
        instruction.placed result.1 :=
    instruction.targetValue_deliver result.1 machine.registers
  refine ⟨instruction.narrowResult first.registers, firstStep, secondStep, ?_⟩
  rw [firstStep, secondStep]
  refine ⟨?_, ?_, ?_⟩
  · have kept := agree.delivered instruction (instruction.narrowResult first.registers)
    exact ⟨kept.memory, kept.pc, kept.flags, kept.depth, kept.general, kept.sp⟩
  · rw [target, target]
  · rw [target]
    exact instruction.placed_bounds _

/-- A move that keeps a part of its register, with a different upper half in the two machines. -/
theorem step_narrow_movk :
    let instruction : Instruction := .moveWide .w32 .movk ⟨1, by decide⟩ 5 1
    let word := instruction.encode
    let first := (ofWord word).write .w64 1 0x80000001
    let second := (ofWord word).write .w64 1 0xffffffff80000001
    decode word = .ok instruction ∧ instruction.operandWidth?.isSome ∧ word.bit 31 = false ∧
      first.AboutToExecute word ∧ second.status = .running ∧
      second.executed < second.config.maxInstructions ∧ first.AgreeLow second ∧
      ∃ result : BitVec 32 × Flags,
        first.step = (true, { first.delivered instruction result with
          executed := first.executed + 1 }) ∧
        second.step = (true, { second.delivered instruction result with
          executed := second.executed + 1 }) ∧
        first.step.2.AgreeLow second.step.2 ∧
        instruction.targetValue second.step.2.registers =
          instruction.targetValue first.step.2.registers ∧
        0 ≤ instruction.targetValue first.step.2.registers ∧
        instruction.targetValue first.step.2.registers < 2 ^ 32 := by
  intro instruction word first second
  have decoded : decode word = .ok instruction := Instruction.decode_encode instruction
  have narrow : word.bit 31 = false := by decide
  have ready : first.AboutToExecute word :=
    ⟨rfl, show (0 : Int) < 10000 by decide, rfl, ⟨0, rfl, show 0 < 4 by decide⟩, rfl⟩
  have below : second.executed < second.config.maxInstructions := show (0 : Int) < 10000 by decide
  have agree : first.AgreeLow second := ⟨rfl, rfl, rfl, rfl, by decide, rfl⟩
  exact ⟨decoded, rfl, narrow, ready, rfl, below, agree,
    step_narrow decoded rfl narrow ready rfl below agree⟩

end Machine

end MiniA64
