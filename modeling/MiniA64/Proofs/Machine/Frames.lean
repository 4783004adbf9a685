import MiniA64.Proofs.Machine.NamedRegisters
import MiniA64.Proofs.Machine.Scopes
import MiniA64.Proofs.Machine.Termination

/-!
# What a step leaves alone

Of the registers, the flags and the depth of calls a step changes only what its word allows. As a
target of anything but an address or a plain addition of a constant register 31 takes nothing, so it
stays zero where it is read as zero. A step that fetches no word changes none of them.
-/

namespace MiniA64

namespace Registers

variable (registers : Registers) {reg other : Reg}

theorem read_write_of_ne (apart : reg ≠ other) (value : BitVec 64) :
    (registers.write other value).read reg = registers.read reg := by
  have numbers : other.toNat ≠ reg.toNat := fun same ↦ apart (BitVec.eq_of_toNat_eq same).symm
  unfold write
  split
  · rename_i inside
    unfold read
    split
    · exact Vector.getElem_set_ne inside _ numbers
    · rfl
  · rfl

theorem sp_write (value : BitVec 64) : (registers.write reg value).sp = registers.sp := by
  unfold write
  split <;> rfl

theorem flags_write (value : BitVec 64) : (registers.write reg value).flags = registers.flags := by
  unfold write
  split <;> rfl

end Registers

namespace Machine

variable {κ φ τ : Type}

/-- What the scope does not allow is after some work as it was before. -/
structure ChangesOnly (scope : Scope) (before after : Machine κ φ τ) : Prop where
  general : ∀ reg, ¬scope.general reg → after.registers.read reg = before.registers.read reg
  sp : ¬scope.sp → after.registers.sp = before.registers.sp
  flags : ¬scope.flags → after.registers.flags = before.registers.flags
  depth : ¬scope.depth → after.depth = before.depth

namespace ChangesOnly

variable {scope inner outer : Scope} {first second third : Machine κ φ τ}

/-- Other work than on the registers, the flags and the depth is allowed by every scope. -/
theorem of_eq (registers : second.registers = first.registers)
    (depth : second.depth = first.depth) : first.ChangesOnly scope second := by
  refine ⟨fun _ _ ↦ ?_, fun _ ↦ ?_, fun _ ↦ ?_, fun _ ↦ depth⟩ <;> rw [registers]

theorem trans (before : first.ChangesOnly scope second) (after : second.ChangesOnly scope third) :
    first.ChangesOnly scope third where
  general reg outside := (after.general reg outside).trans (before.general reg outside)
  sp outside := (after.sp outside).trans (before.sp outside)
  flags outside := (after.flags outside).trans (before.flags outside)
  depth outside := (after.depth outside).trans (before.depth outside)

theorem mono (changes : first.ChangesOnly inner second) (within : inner.Within outer) :
    first.ChangesOnly outer second where
  general reg outside := changes.general reg (outside ∘ within.general reg)
  sp outside := changes.sp (outside ∘ within.sp)
  flags outside := changes.flags (outside ∘ within.flags)
  depth outside := changes.depth (outside ∘ within.depth)

theorem jump (changes : first.ChangesOnly scope second) (target : Int) :
    first.ChangesOnly scope (second.jump target) :=
  ⟨changes.general, changes.sp, changes.flags, changes.depth⟩

variable (machine : Machine κ φ τ)

theorem write (width : Width) {reg : Reg} (value : BitVec width.bits)
    (allowed : scope.general reg) : machine.ChangesOnly scope (machine.write width reg value) where
  general other outside := by
    have apart : other ≠ reg := by
      rintro rfl
      exact outside allowed
    exact machine.registers.read_write_of_ne apart _
  sp _ := machine.registers.sp_write _
  flags _ := machine.registers.flags_write _
  depth _ := rfl

theorem writeSp (width : Width) {reg : Reg} (value : BitVec width.bits)
    (general : scope.general reg) (sp : reg = Reg.special → scope.sp) :
    machine.ChangesOnly scope (machine.writeSp width reg value) := by
  by_cases special : reg = Reg.special
  · have written : machine.writeSp width reg value = machine.withRegisters
        { machine.registers with sp := (value.setWidth 64).toNat } := by
      rw [Machine.writeSp, Registers.writeSpAt, Registers.writeSp, if_pos special]
    rw [written]
    exact ⟨fun _ _ ↦ rfl, fun outside ↦ absurd (sp special) outside, fun _ ↦ rfl, fun _ ↦ rfl⟩
  · have written : machine.writeSp width reg value = machine.write width reg value := by
      rw [Machine.writeSp, Registers.writeSpAt, Registers.writeSp, if_neg special]
      rfl
    rw [written]
    exact write machine width value general

theorem setFlags (flags : Flags) (allowed : scope.flags) :
    machine.ChangesOnly scope (machine.setFlags flags) :=
  ⟨fun _ _ ↦ rfl, fun _ ↦ rfl, fun outside ↦ absurd allowed outside, fun _ ↦ rfl⟩

theorem link (general : scope.general Reg.link) (depth : scope.depth) :
    machine.ChangesOnly scope machine.link :=
  have written := write machine .w64 (BitVec.ofInt 64 machine.nextPc) general
  ⟨written.general, written.sp, written.flags, fun outside ↦ absurd depth outside⟩

/-- A store changes no register, and a load its target. -/
theorem access (transfer : Transfer) (address : BitVec 64) {rt : Reg}
    (general : transfer.code ≠ 0 → scope.general rt) :
    machine.ChangesOnly scope (machine.access transfer address rt) := by
  have same (world : World κ φ τ) : machine.ChangesOnly scope { machine with world } :=
    of_eq rfl rfl
  cases transfer with
  | store => exact same _
  | load | loadSigned64 | loadSigned32 =>
    unfold Machine.access
    dsimp only
    split
    · exact same _
    · exact (same _).trans (write _ _ _ (general (by simp [Transfer.code])))

end ChangesOnly

section

variable (machine : Machine κ φ τ)

theorem changesOnly_loadStore (transfer : Transfer) (address : Addressing) (rn rt : Reg) :
    machine.ChangesOnly (Instruction.loadStore transfer address rn rt).scope
      (machine.loadStore transfer address rn rt) := by
  have accessed (base : BitVec 64) :
      machine.ChangesOnly (Instruction.loadStore transfer address rn rt).scope
        (machine.access transfer base rt) :=
    .access machine transfer base fun loads ↦ .inl ⟨loads, rfl⟩
  cases address with
  | scaled | unscaled | index => exact accessed _
  | postIndex | preIndex =>
    exact (accessed _).trans (.writeSp _ _ _ (.inr ⟨rfl, rfl⟩) fun special ↦ ⟨rfl, special⟩)

theorem changesOnly_pair (width : Width) (load : Bool) (mode : PairMode) (offset : BitVec 7)
    (rt2 rn rt : Reg) :
    machine.ChangesOnly (Instruction.pair width load mode offset rt2 rn rt).scope
      (machine.pair width load mode offset rt2 rn rt) := by
  have loads (code : (pairTransfer width load).code ≠ 0) : load = true := by
    cases load with
    | true => rfl
    | false => cases width <;> exact absurd rfl code
  have both (first second : BitVec 64) :
      machine.ChangesOnly (Instruction.pair width load mode offset rt2 rn rt).scope
        ((machine.access (pairTransfer width load) first rt).access (pairTransfer width load)
          second rt2) := by
    refine .trans (.access machine _ first fun code ↦ ?_) (.access _ _ second fun code ↦ ?_)
    · exact .inl ⟨loads code, .inl rfl⟩
    · exact .inl ⟨loads code, .inr rfl⟩
  cases mode with
  | offset | plainOffset => exact both _ _
  | postIndex | preIndex =>
    exact (both _ _).trans (.writeSp _ _ _ (.inr ⟨rfl, rfl⟩) fun special ↦ ⟨rfl, special⟩)

variable [Console κ] [FileStore φ] [Clock τ]

theorem changesOnly_serviceCall (number : BitVec 16) :
    machine.ChangesOnly (Instruction.exception .svc number).scope (machine.serviceCall number) := by
  obtain ⟨argument, result, world, -, done⟩ := machine.serviceCall_cases number
  have served : machine.ChangesOnly (Instruction.exception .svc number).scope
      { machine with world } := .of_eq rfl rfl
  rw [done]
  obtain (none | value) | _ | cause := result
  · exact served.jump _
  · exact (served.trans (.write _ .w64 _ rfl)).jump _
  · exact served.trans (.of_eq rfl rfl)
  · exact served.trans (.of_eq rfl rfl)

theorem changesOnly_execute (instruction : Instruction) :
    machine.ChangesOnly instruction.scope (machine.execute instruction) := by
  have same (scope : Scope) : machine.ChangesOnly scope machine := .of_eq rfl rfl
  cases instruction with
  | hint | barrier => exact (same _).jump _
  | moveWide | bitfield | extract | twoSource | multiplyAdd =>
    exact (ChangesOnly.write machine _ _ rfl).jump _
  | branchRegister op rn =>
    cases op with
    | br => exact (same _).jump _
    | blr => exact (ChangesOnly.link machine rfl trivial).jump _
    | ret =>
      unfold execute branchRegister
      dsimp only
      split
      · exact .of_eq rfl rfl
      · exact ⟨fun _ _ ↦ rfl, fun _ ↦ rfl, fun _ ↦ rfl, fun outside ↦ absurd trivial outside⟩
  | exception op number =>
    cases op with
    | svc => exact machine.changesOnly_serviceCall number
    | hvc | smc => exact (same _).jump _
  | addSubImmediate width op setsFlags =>
    cases setsFlags with
    | true => exact ((ChangesOnly.setFlags machine _ rfl).trans (.write _ _ _ rfl)).jump _
    | false =>
      refine .jump (.writeSp machine _ _ rfl fun special ↦ ?_) _
      exact ⟨rfl, special⟩
  | addSubRegister width op setsFlags =>
    cases setsFlags with
    | true => exact ((ChangesOnly.setFlags machine _ rfl).trans (.write _ _ _ rfl)).jump _
    | false => exact (ChangesOnly.write machine _ _ rfl).jump _
  | logical width op =>
    cases op with
    | ands => exact ((ChangesOnly.setFlags machine _ rfl).trans (.write _ _ _ rfl)).jump _
    | and | orr | eor => exact (ChangesOnly.write machine _ _ rfl).jump _
  | branch link offset =>
    cases link with
    | true => exact (ChangesOnly.link machine rfl trivial).jump _
    | false => exact (same _).jump _
  | branchIf | compareBranch =>
    unfold execute
    dsimp only
    split <;> exact (same _).jump _
  | loadStore => exact (machine.changesOnly_loadStore ..).jump _
  | loadLiteral load offset rt => exact (ChangesOnly.access machine _ _ fun _ ↦ rfl).jump _
  | pair => exact (machine.changesOnly_pair ..).jump _

theorem changesOnly_perform (word : Word) :
    machine.ChangesOnly word.scope (machine.perform word) := by
  unfold perform
  cases decoded : decode word with
  | error error => exact .of_eq rfl rfl
  | ok instruction =>
    have executed : machine.ChangesOnly word.scope (machine.execute instruction) :=
      (machine.changesOnly_execute instruction).mono (Word.scope_of_decode decoded)
    dsimp only
    unfold count
    split
    · exact executed.trans (.of_eq rfl rfl)
    · exact executed

/-- What the word at the program counter allows, and nothing where no word is fetched. -/
def scope : Scope :=
  match machine.fetch with
  | .ok word => word.scope
  | .error _ => {}

theorem changesOnly_step : machine.ChangesOnly machine.scope machine.step.2 := by
  unfold step scope
  cases fetched : machine.fetch with
  | ok word => exact machine.changesOnly_perform word
  | error stopped =>
    dsimp only
    obtain rfl | ⟨cause, rfl⟩ | rfl := eq_of_fetch_error fetched <;> exact .of_eq rfl rfl

/--
A step changes no register, flag or depth but those that the fetched word names, whatever watches
it, and register 31 is read as zero after every step.
-/
theorem step_frame {η : Type} (hook : Hook η) (state : η) :
    machine.ChangesOnly machine.scope (machine.stepWatched hook state).2.1 ∧
      ∀ width, (machine.stepWatched hook state).2.1.registers.readAt width Reg.special = 0 := by
  refine ⟨?_, fun width ↦ Registers.readAt_special _ width⟩
  obtain prevented | stepped := stepWatched_eq hook state machine
  · rw [prevented]
    exact .of_eq rfl rfl
  · rw [stepped]
    exact machine.changesOnly_step

end

end Machine

end MiniA64
