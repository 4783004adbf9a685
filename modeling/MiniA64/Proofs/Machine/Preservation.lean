import MiniA64.Proofs.Machine.Failures

/-!
# What instructions preserve

Services and accesses leave the window of memory, so no instruction changes its size, its base or
the size of the program. Stack pointer and program counter stay words, the count of instructions is
left to the step, and only calls and returns change the depth.
-/

namespace MiniA64

variable {κ φ τ : Type}

/-! ## Services -/

namespace Service

variable (config : Config) (argument : Arguments) (world : World κ φ τ)

theorem sameWindow_run [Console κ] [FileStore φ] [Clock τ] (service : Service) :
    world.memory.SameWindow (run config service argument world).2.memory := by
  obtain accessed | ⟨-, drawn⟩ | ⟨screen, -, shown⟩ := run_cases config argument world service
  · exact accessed.memory
  · rw [drawn]
    exact .refl _
  · rw [shown]
    exact .refl _

theorem sameWindow_dispatch [Console κ] [FileStore φ] [Clock τ] (number : Int) :
    world.memory.SameWindow (dispatch config number argument world).2.memory := by
  unfold dispatch
  split
  · exact .refl _
  · exact sameWindow_run config argument (world.note ..) _

end Service

/-! ## Registers -/

namespace Registers

/-- Stack pointer and program counter are words, as the general registers always are. -/
structure Words (registers : Registers) : Prop where
  sp : 0 ≤ registers.sp ∧ registers.sp < 2 ^ 64
  pc : 0 ≤ registers.pc ∧ registers.pc < 2 ^ 64

variable {registers : Registers}

theorem wrap_bounds (value : Int) : 0 ≤ wrap value ∧ wrap value < 2 ^ 64 := by
  unfold wrap
  omega

theorem words_initial (sp : Int) : (initial sp).Words := ⟨wrap_bounds sp, wrap_bounds 0⟩

theorem Words.write (words : registers.Words) (reg : Reg) (value : BitVec 64) :
    (registers.write reg value).Words := by
  unfold Registers.write
  split <;> exact ⟨words.sp, words.pc⟩

theorem Words.writeSp (words : registers.Words) (reg : Reg) (value : BitVec 64) :
    (registers.writeSp reg value).Words := by
  unfold Registers.writeSp
  split
  · refine ⟨⟨Int.natCast_nonneg _, ?_⟩, words.pc⟩
    have fits : (value.toNat : Int) < 2 ^ 64 := by exact_mod_cast value.isLt
    exact fits
  · exact words.write reg value

theorem Words.jump (words : registers.Words) (target : Int) :
    Words { registers with pc := wrap target } :=
  ⟨words.sp, wrap_bounds target⟩

end Registers

/-! ## Instructions -/

namespace Instruction

/-- The instruction calls a subroutine. -/
def isCall : Instruction → Bool
  | branch link _ => link
  | branchRegister .blr _ => true
  | _ => false

/-- The instruction returns from a subroutine. -/
def isReturn : Instruction → Bool
  | branchRegister .ret _ => true
  | _ => false

end Instruction

namespace Machine

/-- What no step changes but by counting, and what stays a word. -/
structure Keeps (before after : Machine κ φ τ) : Prop where
  config : after.config = before.config
  executed : after.executed = before.executed
  depth : after.depth = before.depth
  memory : before.world.memory.SameWindow after.world.memory
  words : before.registers.Words → after.registers.Words

namespace Keeps

variable {first second third machine : Machine κ φ τ}

theorem trans (before : first.Keeps second) (after : second.Keeps third) : first.Keeps third where
  config := after.config.trans before.config
  executed := after.executed.trans before.executed
  depth := after.depth.trans before.depth
  memory := before.memory.trans after.memory
  words := after.words ∘ before.words

theorem refl (machine : Machine κ φ τ) : machine.Keeps machine := ⟨rfl, rfl, rfl, .refl _, id⟩

theorem write (machine : Machine κ φ τ) (width : Width) (reg : Reg) (value : BitVec width.bits) :
    machine.Keeps (machine.write width reg value) :=
  ⟨rfl, rfl, rfl, .refl _, fun words ↦ words.write reg _⟩

theorem writeSp (machine : Machine κ φ τ) (width : Width) (reg : Reg)
    (value : BitVec width.bits) : machine.Keeps (machine.writeSp width reg value) :=
  ⟨rfl, rfl, rfl, .refl _, fun words ↦ words.writeSp reg _⟩

theorem setFlags (machine : Machine κ φ τ) (flags : Flags) :
    machine.Keeps (machine.setFlags flags) :=
  ⟨rfl, rfl, rfl, .refl _, fun words ↦ ⟨words.sp, words.pc⟩⟩

theorem jump (machine : Machine κ φ τ) (target : Int) : machine.Keeps (machine.jump target) :=
  ⟨rfl, rfl, rfl, .refl _, fun words ↦ words.jump target⟩

/-- Work followed by going on to the next instruction. -/
theorem proceed (keeps : first.Keeps second) : first.Keeps second.proceed :=
  keeps.trans (jump second _)

theorem world {world : World κ φ τ} (shape : machine.world.memory.SameWindow world.memory) :
    machine.Keeps { machine with world } := ⟨rfl, rfl, rfl, shape, id⟩

theorem halt (machine : Machine κ φ τ) : machine.Keeps machine.halt := ⟨rfl, rfl, rfl, .refl _, id⟩

theorem raise (machine : Machine κ φ τ) (cause : FaultCause) :
    machine.Keeps (machine.raise cause) := ⟨rfl, rfl, rfl, .refl _, id⟩

theorem leave (machine : Machine κ φ τ) (pc : Int) : machine.Keeps (fetch.leave machine pc) :=
  ⟨rfl, rfl, rfl, .refl _, id⟩

theorem access (machine : Machine κ φ τ) (transfer : Transfer) (address : BitVec 64) (rt : Reg) :
    machine.Keeps (machine.access transfer address rt) := by
  have kept : machine.Keeps
      { machine with world := (machine.world.read address.toNat transfer.byteCount).2 } :=
    world (World.Accessed.read ..).memory
  cases transfer with
  | store => exact world (World.Accessed.write ..).memory
  | load | loadSigned64 | loadSigned32 =>
    unfold Machine.access
    dsimp only
    split
    · exact kept
    · exact kept.trans (write ..)

theorem loadStore (machine : Machine κ φ τ) (transfer : Transfer) (address : Addressing)
    (rn rt : Reg) : machine.Keeps (machine.loadStore transfer address rn rt) := by
  have accessed (address : BitVec 64) := access machine transfer address rt
  cases address with
  | scaled | unscaled | index => exact accessed _
  | postIndex | preIndex => exact (accessed _).trans (writeSp ..)

theorem pair (machine : Machine κ φ τ) (width : Width) (load : Bool) (mode : PairMode)
    (offset : BitVec 7) (rt2 rn rt : Reg) :
    machine.Keeps (machine.pair width load mode offset rt2 rn rt) := by
  have both (first second : BitVec 64) :=
    (access machine (pairTransfer width load) first rt).trans
      (access _ (pairTransfer width load) second rt2)
  cases mode with
  | offset | plainOffset => exact both _ _
  | postIndex | preIndex => exact (both _ _).trans (writeSp ..)

theorem serviceCall [Console κ] [FileStore φ] [Clock τ] (machine : Machine κ φ τ)
    (number : BitVec 16) : machine.Keeps (machine.serviceCall number) := by
  obtain ⟨argument, result, after, dispatched, done⟩ := machine.serviceCall_cases number
  have served : machine.Keeps { machine with world := after } := by
    have shape := Service.sameWindow_dispatch machine.config argument machine.world number.toNat
    rw [dispatched] at shape
    exact world shape
  rw [done]
  obtain (none | value) | _ | cause := result
  · exact served.proceed
  · exact (served.trans (write ..)).proceed
  · exact served.trans (halt _)
  · exact served.trans (raise _ cause)

end Keeps

/-- The depth after an instruction: a return that finds no call is left to halt. -/
def depthAfter (machine : Machine κ φ τ) (instruction : Instruction) : Int :=
  if instruction.isCall then machine.depth + 1
  else if instruction.isReturn ∧ machine.depth ≠ 0 then machine.depth - 1
  else machine.depth

/-- An instruction keeps everything but the depth, and that it changes by calling and returning. -/
theorem keeps_execute [Console κ] [FileStore φ] [Clock τ] (machine : Machine κ φ τ)
    (instruction : Instruction) :
    Keeps { machine with depth := machine.depthAfter instruction }
      (machine.execute instruction) := by
  cases instruction with
  | hint | barrier => exact (Keeps.refl machine).proceed
  | moveWide | bitfield | extract | twoSource | multiplyAdd =>
    exact (Keeps.write machine ..).proceed
  | branchRegister op rn =>
    cases op with
    | br => exact Keeps.jump machine _
    | blr =>
      exact ⟨rfl, rfl, rfl, .refl _, fun words ↦
        (words.write Reg.link (BitVec.ofInt 64 machine.nextPc)).jump _⟩
    | ret =>
      by_cases outermost : machine.depth = 0
      · have stays : machine.depthAfter (.branchRegister .ret rn) = machine.depth := by
          simp [depthAfter, Instruction.isCall, outermost]
        rw [stays, execute, branchRegister, if_pos outermost]
        exact ⟨rfl, rfl, rfl, .refl _, id⟩
      · have returns : machine.depthAfter (.branchRegister .ret rn) = machine.depth - 1 := by
          simp [depthAfter, Instruction.isCall, Instruction.isReturn, outermost]
        rw [returns, execute, branchRegister, if_neg outermost]
        exact Keeps.jump _ _
  | exception op number =>
    cases op with
    | svc => exact Keeps.serviceCall machine number
    | hvc | smc => exact (Keeps.refl machine).proceed
  | addSubImmediate width op setsFlags =>
    cases setsFlags with
    | true => exact ((Keeps.setFlags machine _).trans (Keeps.write ..)).proceed
    | false => exact (Keeps.writeSp machine ..).proceed
  | addSubRegister width op setsFlags =>
    cases setsFlags with
    | true => exact ((Keeps.setFlags machine _).trans (Keeps.write ..)).proceed
    | false => exact (Keeps.write machine ..).proceed
  | logical width op =>
    cases op with
    | ands => exact ((Keeps.setFlags machine _).trans (Keeps.write ..)).proceed
    | and | orr | eor => exact (Keeps.write machine ..).proceed
  | branch link offset =>
    cases link with
    | true =>
      exact ⟨rfl, rfl, rfl, .refl _, fun words ↦
        (words.write Reg.link (BitVec.ofInt 64 machine.nextPc)).jump _⟩
    | false => exact Keeps.jump machine _
  | branchIf | compareBranch =>
    unfold execute
    dsimp only
    split
    · exact Keeps.jump machine _
    · exact (Keeps.refl machine).proceed
  | loadStore transfer address rn rt => exact (Keeps.loadStore machine ..).proceed
  | loadLiteral load offset rt => exact (Keeps.access machine ..).proceed
  | pair width load mode offset rt2 rn rt => exact (Keeps.pair machine ..).proceed

end Machine

end MiniA64
