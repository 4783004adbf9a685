import MiniA64.Proofs.Machine.Attempts
import MiniA64.Proofs.Machine.Loading
import MiniA64.Proofs.Machine.ServiceFrames

/-!
# Reachable machines

The machines that a run can come to: a program is loaded into some machine, whatever its state,
and steps follow. No step changes the configuration, and the framebuffer of a reachable machine is
sound if the configuration has room for its grids. Of the instructions only a supervisor call
touches the framebuffer, a device or the random numbers.
-/

namespace MiniA64

variable {κ φ τ : Type}

/-! ## Services -/

namespace Service

theorem sound_run [Console κ] [FileStore φ] [Clock τ] (config : Config) (service : Service)
    (argument : Arguments) {world : World κ φ τ} (sound : world.screen.Sound) :
    (run config service argument world).2.screen.Sound := by
  obtain accessed | ⟨-, drawn⟩ | ⟨screen, keeps, shown⟩ := run_cases config argument world service
  · exact accessed.screen ▸ sound
  · rw [drawn]
    exact sound
  · rw [shown]
    exact keeps sound

theorem sound_dispatch [Console κ] [FileStore φ] [Clock τ] (config : Config) (number : Int)
    (argument : Arguments) {world : World κ φ τ} (sound : world.screen.Sound) :
    (dispatch config number argument world).2.screen.Sound := by
  unfold dispatch
  split
  · exact sound
  · exact sound_run config _ argument sound

end Service

/-! ## Instructions -/

namespace Machine

/-- What a program reaches outside of memory and its registers is the same. -/
structure SameOutside (before after : Machine κ φ τ) : Prop where
  config : after.config = before.config
  screen : after.world.screen = before.world.screen
  host : after.world.host = before.world.host

/-- Random numbers and status are the same as well. -/
structure Confined (before after : Machine κ φ τ) : Prop extends before.SameOutside after where
  seed : after.world.seed = before.world.seed
  status : after.status = before.status

theorem Confined.trans {first second third : Machine κ φ τ} (before : first.Confined second)
    (after : second.Confined third) : first.Confined third where
  config := after.config.trans before.config
  screen := after.screen.trans before.screen
  host := after.host.trans before.host
  seed := after.seed.trans before.seed
  status := after.status.trans before.status

theorem confined_read (machine : Machine κ φ τ) (address length : Int) :
    machine.Confined { machine with world := (machine.world.read address length).2 } := by
  unfold World.read
  split <;> exact ⟨⟨rfl, rfl, rfl⟩, rfl, rfl⟩

theorem confined_write (machine : Machine κ φ τ) (address : Int) (data : List UInt8) :
    machine.Confined { machine with world := machine.world.write address data } := by
  unfold World.write
  split <;> exact ⟨⟨rfl, rfl, rfl⟩, rfl, rfl⟩

theorem confined_access (machine : Machine κ φ τ) (transfer : Transfer) (address : BitVec 64)
    (rt : Reg) : machine.Confined (machine.access transfer address rt) := by
  have read := machine.confined_read address.toNat transfer.byteCount
  cases transfer with
  | store => exact machine.confined_write ..
  | load | loadSigned64 | loadSigned32 =>
    unfold access
    dsimp only
    split
    · exact read
    · exact read.trans ⟨⟨rfl, rfl, rfl⟩, rfl, rfl⟩

theorem confined_loadStore (machine : Machine κ φ τ) (transfer : Transfer) (address : Addressing)
    (rn rt : Reg) : machine.Confined (machine.loadStore transfer address rn rt) := by
  have access (address : BitVec 64) := machine.confined_access transfer address rt
  cases address with
  | scaled | unscaled | index => exact access _
  | postIndex | preIndex => exact (access _).trans ⟨⟨rfl, rfl, rfl⟩, rfl, rfl⟩

theorem confined_pair (machine : Machine κ φ τ) (width : Width) (load : Bool) (mode : PairMode)
    (offset : BitVec 7) (rt2 rn rt : Reg) :
    machine.Confined (machine.pair width load mode offset rt2 rn rt) := by
  have both (transfer : Transfer) (first second : BitVec 64) :=
    (machine.confined_access transfer first rt).trans (confined_access _ transfer second rt2)
  cases mode with
  | offset | plainOffset => exact both _ _ _
  | postIndex | preIndex => exact (both _ _ _).trans ⟨⟨rfl, rfl, rfl⟩, rfl, rfl⟩

theorem confined_proceed (machine : Machine κ φ τ) : machine.Confined machine.proceed :=
  ⟨⟨rfl, rfl, rfl⟩, rfl, rfl⟩

variable [Console κ] [FileStore φ] [Clock τ]

/-- Of all instructions only a supervisor call reaches outside, and of the others only the return
that finds no call halts. -/
theorem confined_execute (machine : Machine κ φ τ) {instruction : Instruction}
    (quiet : ∀ number, instruction ≠ .exception .svc number) :
    ∃ after, machine.Confined after ∧
      (machine.execute instruction = after ∨ machine.execute instruction = after.halt) := by
  by_cases outermost : (∃ rn, instruction = .branchRegister .ret rn) ∧ machine.depth = 0
  · obtain ⟨⟨rn, rfl⟩, zero⟩ := outermost
    refine ⟨_, ?_, .inr (if_pos zero)⟩
    exact ⟨⟨rfl, rfl, rfl⟩, rfl, rfl⟩
  refine ⟨_, ?_, .inl rfl⟩
  cases instruction with
  | hint | barrier | moveWide | bitfield | extract | twoSource | multiplyAdd =>
    exact ⟨⟨rfl, rfl, rfl⟩, rfl, rfl⟩
  | branchRegister op rn =>
    cases op with
    | br | blr => exact ⟨⟨rfl, rfl, rfl⟩, rfl, rfl⟩
    | ret =>
      have returns : machine.depth ≠ 0 := fun zero ↦ outermost ⟨⟨rn, rfl⟩, zero⟩
      rw [execute, branchRegister, if_neg returns]
      exact ⟨⟨rfl, rfl, rfl⟩, rfl, rfl⟩
  | exception op number =>
    cases op with
    | svc => exact absurd rfl (quiet number)
    | hvc | smc => exact ⟨⟨rfl, rfl, rfl⟩, rfl, rfl⟩
  | addSubImmediate width op setsFlags => cases setsFlags <;> exact ⟨⟨rfl, rfl, rfl⟩, rfl, rfl⟩
  | addSubRegister width op setsFlags => cases setsFlags <;> exact ⟨⟨rfl, rfl, rfl⟩, rfl, rfl⟩
  | logical width op => cases op <;> exact ⟨⟨rfl, rfl, rfl⟩, rfl, rfl⟩
  | branch link => cases link <;> exact ⟨⟨rfl, rfl, rfl⟩, rfl, rfl⟩
  | branchIf | compareBranch =>
    unfold execute
    dsimp only
    split <;> exact ⟨⟨rfl, rfl, rfl⟩, rfl, rfl⟩
  | loadStore => exact (machine.confined_loadStore ..).trans (confined_proceed _)
  | loadLiteral => exact (machine.confined_access ..).trans (confined_proceed _)
  | pair => exact (machine.confined_pair ..).trans (confined_proceed _)

theorem outside_execute (machine : Machine κ φ τ) {instruction : Instruction}
    (quiet : ∀ number, instruction ≠ .exception .svc number) :
    machine.SameOutside (machine.execute instruction) := by
  obtain ⟨after, confined, done | halted⟩ := machine.confined_execute quiet
  · exact done ▸ confined.toSameOutside
  · rw [halted]
    exact ⟨confined.config, confined.screen, confined.host⟩

/-- What a machine becomes when a service is done. -/
theorem serviceCall_cases (machine : Machine κ φ τ) (number : BitVec 16) :
    ∃ argument result world,
      Service.dispatch machine.config number.toNat argument machine.world = (result, world) ∧
      machine.serviceCall number =
        match result with
        | .done none => proceed { machine with world }
        | .done (some value) =>
          (write { machine with world } .w64 0 (BitVec.ofInt 64 value)).proceed
        | .halt => halt { machine with world }
        | .fault cause => raise { machine with world } cause :=
  ⟨_, _, _, rfl, rfl⟩

theorem config_serviceCall (machine : Machine κ φ τ) (number : BitVec 16) :
    (machine.serviceCall number).config = machine.config := by
  obtain ⟨argument, result, world, -, done⟩ := machine.serviceCall_cases number
  rw [done]
  obtain (none | value) | _ | cause := result <;> rfl

theorem sound_serviceCall {machine : Machine κ φ τ} (sound : machine.world.screen.Sound)
    (number : BitVec 16) : (machine.serviceCall number).world.screen.Sound := by
  obtain ⟨argument, result, world, dispatched, done⟩ := machine.serviceCall_cases number
  have kept : world.screen.Sound := by
    have after := Service.sound_dispatch machine.config number.toNat argument sound
    rw [dispatched] at after
    exact after
  rw [done]
  obtain (none | value) | _ | cause := result <;> exact kept

/-! ## Steps -/

theorem config_execute (machine : Machine κ φ τ) (instruction : Instruction) :
    (machine.execute instruction).config = machine.config := by
  by_cases call : ∃ number, instruction = .exception .svc number
  · obtain ⟨number, rfl⟩ := call
    exact machine.config_serviceCall number
  · exact (machine.outside_execute (not_exists.mp call)).config

theorem sound_execute {machine : Machine κ φ τ} (sound : machine.world.screen.Sound)
    (instruction : Instruction) : (machine.execute instruction).world.screen.Sound := by
  by_cases call : ∃ number, instruction = .exception .svc number
  · obtain ⟨number, rfl⟩ := call
    exact sound_serviceCall sound number
  · rw [(machine.outside_execute (not_exists.mp call)).screen]
    exact sound

/-- A property of the machine that stopping and counting do not touch and that every instruction
keeps is kept by a step. -/
theorem step_induction {motive : Machine κ φ τ → Prop}
    (raise : ∀ machine cause, motive machine → motive (machine.raise cause))
    (leave : ∀ machine pc, motive machine → motive (fetch.leave machine pc))
    (count : ∀ machine, motive machine → motive machine.count)
    (execute : ∀ machine instruction, motive machine → motive (machine.execute instruction))
    (machine : Machine κ φ τ) (holds : motive machine) : motive machine.step.2 := by
  unfold step
  cases fetched : machine.fetch with
  | error stopped =>
    obtain rfl | ⟨cause, rfl⟩ | rfl := eq_of_fetch_error fetched
    · exact holds
    · exact raise machine cause holds
    · exact leave machine _ holds
  | ok word =>
    show motive (machine.perform word)
    unfold perform
    cases decode word with
    | ok instruction => exact count _ (execute machine instruction holds)
    | error error => exact raise machine _ holds

theorem config_step (machine : Machine κ φ τ) : machine.step.2.config = machine.config := by
  apply step_induction (motive := fun after ↦ after.config = machine.config)
  · exact fun _ _ same ↦ same
  · exact fun _ _ same ↦ same
  · intro after same
    unfold count
    split <;> exact same
  · exact fun after instruction same ↦ (after.config_execute instruction).trans same
  · rfl

theorem sound_step {machine : Machine κ φ τ} (sound : machine.world.screen.Sound) :
    machine.step.2.world.screen.Sound := by
  apply step_induction (motive := fun after ↦ after.world.screen.Sound)
  · exact fun _ _ kept ↦ kept
  · exact fun _ _ kept ↦ kept
  · intro after kept
    unfold count
    split <;> exact kept
  · exact fun after instruction kept ↦ sound_execute kept instruction
  · exact sound

/-- The machines that steps lead to from a loaded program. -/
inductive Reachable : Machine κ φ τ → Prop
  | loaded {machine start : Machine κ φ τ} {code : List UInt8}
      (load : machine.load code = .ok start) : Reachable start
  | step {machine : Machine κ φ τ} (reachable : Reachable machine) : Reachable machine.step.2

/-- The framebuffer of a loaded program is new, and steps keep it sound. -/
theorem Reachable.sound {machine : Machine κ φ τ} (reachable : machine.Reachable)
    (room : machine.config.HasRoom) : machine.world.screen.Sound := by
  induction reachable with
  | loaded load =>
    obtain ⟨memory, log, -, rfl⟩ := ofMemory_of_load load
    exact Framebuffer.sound_new room
  | step reachable ih =>
    rename_i machine
    rw [config_step] at room
    exact sound_step (ih room)

end Machine

end MiniA64
