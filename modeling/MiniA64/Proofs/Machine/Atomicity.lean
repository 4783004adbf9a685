import MiniA64.Machine.Executor
import MiniA64.Proofs.Isa.Exactness
import MiniA64.Proofs.Machine.Termination

/-!
# Faults that leave the machine as it was

The acts of a step, in the order in which they are done, come to what the step does. An executor
rejects its word before it changes anything, the number of a service is looked at before the service
begins, and the step itself looks at the ceiling and at the program counter first. So a fault leaves
the machine as it was, but for its status, unless it is a console that fails in the middle of a
service.
-/

namespace MiniA64

variable {κ φ τ : Type}

/-! ## What an instruction leaves to the step -/

theorem Registers.pc_write (registers : Registers) (reg : Reg) (value : BitVec 64) :
    (registers.write reg value).pc = registers.pc := by
  unfold write
  split <;> rfl

theorem Registers.pc_writeSp (registers : Registers) (reg : Reg) (value : BitVec 64) :
    (registers.writeSp reg value).pc = registers.pc := by
  unfold writeSp
  split
  · rfl
  · exact registers.pc_write reg value

namespace Machine

/-- The machine stands where it stood, and runs if it ran. -/
structure Stays (before after : Machine κ φ τ) : Prop where
  status : after.status = before.status
  pc : after.registers.pc = before.registers.pc

theorem Stays.trans {first second third : Machine κ φ τ} (before : first.Stays second)
    (after : second.Stays third) : first.Stays third :=
  ⟨after.status.trans before.status, after.pc.trans before.pc⟩

theorem Stays.proceed_eq {before after : Machine κ φ τ} (stays : before.Stays after) :
    after.jump before.nextPc = after.proceed := by
  unfold proceed nextPc
  rw [stays.pc]

theorem stays_write (machine : Machine κ φ τ) (width : Width) (reg : Reg)
    (value : BitVec width.bits) : machine.Stays (machine.write width reg value) :=
  ⟨rfl, Registers.pc_write ..⟩

theorem stays_writeSp (machine : Machine κ φ τ) (width : Width) (reg : Reg)
    (value : BitVec width.bits) : machine.Stays (machine.writeSp width reg value) :=
  ⟨rfl, Registers.pc_writeSp ..⟩

theorem stays_setFlags (machine : Machine κ φ τ) (flags : Flags) :
    machine.Stays (machine.setFlags flags) :=
  ⟨rfl, rfl⟩

theorem stays_link (machine : Machine κ φ τ) : machine.Stays machine.link :=
  ⟨rfl, Registers.pc_write ..⟩

theorem stays_addSubImmediate (machine : Machine κ φ τ) (width : Width) (op : AddSubOp)
    (setsFlags shifted : Bool) (immediate : BitVec 12) (rn rd : Reg) :
    machine.Stays (machine.addSubImmediate width op setsFlags shifted immediate rn rd) := by
  cases setsFlags with
  | true => exact (stays_setFlags machine _).trans (stays_write ..)
  | false => exact stays_writeSp ..

theorem stays_addSubRegister (machine : Machine κ φ τ) (width : Width) (op : AddSubOp)
    (setsFlags : Bool) (shift : LinearShift) (amount : BitVec 6) (rm rn rd : Reg) :
    machine.Stays (machine.addSubRegister width op setsFlags shift amount rm rn rd) := by
  cases setsFlags with
  | true => exact (stays_setFlags machine _).trans (stays_write ..)
  | false => exact stays_write ..

theorem stays_logical (machine : Machine κ φ τ) (width : Width) (op : LogicalOp) (invert : Bool)
    (shift : ShiftKind) (amount : BitVec 6) (rm rn rd : Reg) :
    machine.Stays (machine.logical width op invert shift amount rm rn rd) := by
  cases op with
  | ands => exact (stays_setFlags machine _).trans (stays_write ..)
  | and | orr | eor => exact stays_write ..

theorem stays_access (machine : Machine κ φ τ) (transfer : Transfer) (address : BitVec 64)
    (rt : Reg) : machine.Stays (machine.access transfer address rt) := by
  refine ⟨(machine.confined_access ..).status, ?_⟩
  cases transfer with
  | store => rfl
  | load | loadSigned64 | loadSigned32 =>
    unfold access
    dsimp only
    split
    · rfl
    · exact (stays_write ..).pc

theorem stays_loadStore (machine : Machine κ φ τ) (transfer : Transfer) (address : Addressing)
    (rn rt : Reg) : machine.Stays (machine.loadStore transfer address rn rt) := by
  cases address with
  | postIndex | preIndex => exact (stays_access ..).trans (stays_writeSp ..)
  | scaled | unscaled | index => exact stays_access ..

theorem stays_pair (machine : Machine κ φ τ) (width : Width) (load : Bool) (mode : PairMode)
    (offset : BitVec 7) (rt2 rn rt : Reg) :
    machine.Stays (machine.pair width load mode offset rt2 rn rt) := by
  have both (first second : BitVec 64) :=
    (machine.stays_access (pairTransfer width load) first rt).trans
      (stays_access _ (pairTransfer width load) second rt2)
  cases mode with
  | postIndex | preIndex => exact (both _ _).trans (stays_writeSp ..)
  | plainOffset | offset => exact both _ _

end Machine

/-! ## Supervisor calls -/

section

variable [Console κ] [FileStore φ] [Clock τ]

theorem Service.dispatch_of_known {config : Config} {number : Int} {argument : Service.Arguments}
    {world : World κ φ τ} {service : Service} (known : Service.ofNumber? number = some service) :
    Service.dispatch config number argument world =
      Service.run config service argument
        (world.note .debug "armlet.emulator.extended"
          ("extended opcode 0x" ++ Text.hexLower 0 number ++ " (" ++ service.name ++ ")")) := by
  rw [Service.dispatch, known]

/-- What a supervisor call makes of the machine when its service has been carried out. -/
def Machine.settle (machine : Machine κ φ τ) : ServiceResult → Machine κ φ τ
  | .done none => machine.proceed
  | .done (some value) => (machine.write .w64 0 (BitVec.ofInt 64 value)).proceed
  | .halt => machine.halt
  | .fault cause => machine.raise cause

theorem Machine.serviceCall_eq (machine : Machine κ φ τ) (number : BitVec 16) :
    machine.serviceCall number =
      let answer := Service.dispatch machine.config number.toNat
        (fun index ↦ (machine.registers.read (BitVec.ofNat 5 index)).toNat) machine.world
      Machine.settle { machine with world := answer.2 } answer.1 :=
  rfl

end

/-! ## Acts -/

namespace Executor

open Machine

theorem outcome_bind {α β : Type} (machine : Machine κ φ τ) (act : Act κ φ τ α)
    (next : α → Act κ φ τ β) :
    outcome machine (act >>= next) =
      match outcome machine act with
      | (.ok value, later) => outcome later (next value)
      | (.error cause, later) => (.error cause, later) := by
  have bound : outcome machine (act >>= next) =
      (ExceptT.bindCont next (outcome machine act).1).run (outcome machine act).2 := rfl
  rw [bound]
  obtain ⟨_ | _, later⟩ := outcome machine act <;> rfl

theorem outcome_access (machine : Machine κ φ τ) (size code : BitVec 2) (rt : Reg)
    (address : BitVec 64) :
    outcome machine (access size code rt address) =
      match Transfer.ofCodes? size code with
      | some transfer => (.ok (), machine.access transfer address rt)
      | none => (.error .invalidTransfer, machine) := by
  unfold access
  cases Transfer.ofCodes? size code <;> rfl

theorem outcome_access_bind {α : Type} (machine : Machine κ φ τ) (size code : BitVec 2) (rt : Reg)
    (address : BitVec 64) (next : Unit → Act κ φ τ α) :
    outcome machine (access size code rt address >>= next) =
      match Transfer.ofCodes? size code with
      | some transfer => outcome (machine.access transfer address rt) (next ())
      | none => (.error .invalidTransfer, machine) := by
  rw [outcome_bind, outcome_access]
  cases Transfer.ofCodes? size code <;> rfl

theorem outcome_get_bind {α : Type} (machine : Machine κ φ τ)
    (next : Machine κ φ τ → Act κ φ τ α) :
    outcome machine (get >>= next) = outcome machine (next machine) :=
  rfl

theorem outcome_demand_bind {α β : Type} (machine : Machine κ φ τ) (word : Word) (value : α)
    (next : α → Act κ φ τ β) :
    outcome machine (demand word (some value) >>= next) = outcome machine (next value) :=
  rfl

theorem outcome_readSp_bind {α : Type} (machine : Machine κ φ τ) (reg : Reg)
    (next : BitVec 64 → Act κ φ τ α) :
    outcome machine (readSp reg >>= next) =
      outcome machine (next (machine.registers.readSp reg)) :=
  rfl

theorem outcome_read_bind {α : Type} (machine : Machine κ φ τ) (width : Width) (reg : Reg)
    (next : BitVec width.bits → Act κ φ τ α) :
    outcome machine (read width reg >>= next) =
      outcome machine (next (machine.registers.readAt width reg)) :=
  rfl

/-- The codes of a transfer go together. -/
theorem outcome_access_code (machine : Machine κ φ τ) (transfer : Transfer) (rt : Reg)
    (address : BitVec 64) :
    outcome machine (access transfer.sizeCode transfer.code rt address) =
      (.ok (), machine.access transfer address rt) := by
  rw [outcome_access, Transfer.ofCodes?_code]

/-- The size of a transfer is the one beside its code. -/
theorem size_of_ofCodes? {size code : BitVec 2} {transfer : Transfer}
    (known : Transfer.ofCodes? size code = some transfer) : transfer.size = size.toNat := by
  have codes := (Transfer.codes_of_ofCodes? size code transfer known).1
  have small : transfer.size < 4 := by
    cases transfer <;> exact Nat.lt_of_lt_of_le (Fin.isLt _) (by decide)
  rw [← codes, Transfer.sizeCode, BitVec.toNat_ofNat, Nat.mod_eq_of_lt small]

section

variable (machine : Machine κ φ τ) (word : Word)

/-- A single transfer by some addressing, unless its codes do not go together. -/
def Transfers (address : Addressing) (act : Act κ φ τ Unit) : Prop :=
  outcome machine act =
    match Transfer.ofCodes? (word.field 30 2) (word.field 22 2) with
    | some transfer =>
      (.ok (), machine.loadStore transfer address (Decoding.rn word) (Decoding.rd word))
    | none => (.error .invalidTransfer, machine)

theorem transfers_loadScaled :
    Transfers machine word (.scaled (word.field 10 12)) (loadScaled word) := by
  unfold Transfers loadScaled
  rw [outcome_readSp_bind, outcome_access]
  cases known : Transfer.ofCodes? (word.field 30 2) (word.field 22 2) with
  | none => rfl
  | some transfer =>
    dsimp only
    rw [← size_of_ofCodes? known]
    rfl

theorem transfers_loadIndexed {extend : IndexExtend}
    (known : IndexExtend.ofCode? (word.field 13 3) = some extend) :
    Transfers machine word (.index (Decoding.rm word) extend (word.bit 12)) (loadIndexed word) := by
  unfold Transfers loadIndexed
  dsimp only
  rw [known, outcome_get_bind, outcome_demand_bind, outcome_readSp_bind, outcome_access]
  cases codes : Transfer.ofCodes? (word.field 30 2) (word.field 22 2) with
  | none => rfl
  | some transfer =>
    dsimp only
    rw [← size_of_ofCodes? codes]
    rfl

end

/-! ## Families -/

variable [Console κ] [FileStore φ] [Clock τ]

/-- What the acts on a word come to, next to its decoding. -/
inductive ComesTo (machine : Machine κ φ τ) (word : Word) :
    Except DecodeError Instruction → Except FaultCause Int × Machine κ φ τ → Prop
  | rejected (error : DecodeError) :
    ComesTo machine word (.error error) (.error (faultOfDecoding word error), machine)
  | carriedOut {instruction : Instruction} {target : Int} {later : Machine κ φ τ}
    (status : later.status = machine.status)
    (done : later.jump target = machine.execute instruction) :
    ComesTo machine word (.ok instruction) (.ok target, later)
  | halted {instruction : Instruction} {target : Int} {later : Machine κ φ τ}
    (status : later.status = .halted) (done : later = machine.execute instruction) :
    ComesTo machine word (.ok instruction) (.ok target, later)
  | refused {instruction : Instruction} {cause : FaultCause}
    (done : machine.raise cause = machine.execute instruction) :
    ComesTo machine word (.ok instruction) (.error cause, machine)
  | brokenOff {instruction : Instruction} {cause : FaultCause} {later : Machine κ φ τ}
    (console : cause.isConsole = true) (registers : later.registers = machine.registers)
    (done : later.raise cause = machine.execute instruction) :
    ComesTo machine word (.ok instruction) (.error cause, later)

section

variable (machine : Machine κ φ τ) {later : Machine κ φ τ} {word : Word} {act : Act κ φ τ Unit}

theorem ComesTo.proceeds {instruction : Instruction}
    (acted : outcome machine act = (.ok (), later)) (stays : machine.Stays later)
    (done : later.proceed = machine.execute instruction) :
    ComesTo machine word (.ok instruction) (outcome machine (onward machine.nextPc act)) := by
  have went : outcome machine (Executor.onward machine.nextPc act) =
      (.ok machine.nextPc, later) := by
    rw [Executor.onward, outcome_bind, acted]
    rfl
  rw [went]
  exact .carriedOut stays.status (stays.proceed_eq.trans done)

theorem ComesTo.rejects {error : DecodeError}
    (acted : outcome machine act = (.error (faultOfDecoding word error), machine)) :
    ComesTo machine word (.error error) (outcome machine (onward machine.nextPc act)) := by
  have went : outcome machine (Executor.onward machine.nextPc act) =
      (.error (faultOfDecoding word error), machine) := by
    rw [Executor.onward, outcome_bind, acted]
  rw [went]
  exact .rejected error

end

variable (machine : Machine κ φ τ) (word : Word)

theorem comesTo_addSubImmediate :
    ComesTo machine word (.ok (Decoding.addSubImmediate word))
      (outcome machine (onward machine.nextPc (addSubImmediate word))) :=
  .proceeds machine rfl (stays_addSubImmediate ..) rfl

theorem comesTo_addSubRegister :
    ComesTo machine word (Decoding.unknownIfNone (Decoding.addSubRegister word))
      (outcome machine (onward machine.nextPc (addSubRegister word))) := by
  unfold Decoding.addSubRegister addSubRegister
  cases LinearShift.ofKind? (.ofCode (word.field 22 2)) with
  | none => exact .rejects machine rfl
  | some shift => exact .proceeds machine rfl (stays_addSubRegister ..) rfl

theorem comesTo_logical :
    ComesTo machine word (.ok (Decoding.logical word))
      (outcome machine (onward machine.nextPc (logical word))) :=
  .proceeds machine rfl (stays_logical ..) rfl

theorem comesTo_moveWide :
    ComesTo machine word (Decoding.unknownIfNone (Decoding.moveWide word))
      (outcome machine (onward machine.nextPc (moveWide word))) := by
  unfold Decoding.moveWide moveWide
  cases MoveWideOp.ofCode? (word.field 29 2) with
  | none => exact .rejects machine rfl
  | some op =>
    dsimp only
    by_cases inside : (word.field 21 2).toNat < (Decoding.width word).bits / 16
    · rw [dif_pos inside]
      refine .proceeds machine ?_ (stays_write ..) rfl
      exact congrArg (outcome machine) (dif_pos inside)
    · rw [dif_neg inside]
      exact .rejects machine (congrArg (outcome machine) (dif_neg inside))

theorem comesTo_bitfield :
    ComesTo machine word (Decoding.unknownIfNone (Decoding.bitfield word))
      (outcome machine (onward machine.nextPc (bitfield word))) := by
  unfold Decoding.bitfield bitfield
  split
  · exact .rejects machine rfl
  cases Decoding.bitNumber (Decoding.width word) (word.field 16 6) with
  | none => exact .rejects machine rfl
  | some rotate =>
    cases Decoding.bitNumber (Decoding.width word) (word.field 10 6) with
    | none => exact .rejects machine rfl
    | some last => exact .proceeds machine rfl (stays_write ..) rfl

theorem comesTo_extract :
    ComesTo machine word (Decoding.unknownIfNone (Decoding.extract word))
      (outcome machine (onward machine.nextPc (extract word))) := by
  unfold Decoding.extract extract
  split
  · exact .rejects machine rfl
  cases Decoding.bitNumber (Decoding.width word) (word.field 10 6) with
  | none => exact .rejects machine rfl
  | some low => exact .proceeds machine rfl (stays_write ..) rfl

theorem comesTo_twoSource :
    ComesTo machine word (Decoding.unknownIfNone (Decoding.twoSource word))
      (outcome machine (onward machine.nextPc (twoSource word))) := by
  unfold Decoding.twoSource twoSource
  cases TwoSourceOp.ofCode? (word.field 10 6) with
  | none => exact .rejects machine rfl
  | some op => exact .proceeds machine rfl (stays_write ..) rfl

theorem comesTo_multiplyAdd :
    ComesTo machine word (.ok (Decoding.multiplyAdd word))
      (outcome machine (onward machine.nextPc (multiplyAdd word))) :=
  .proceeds machine rfl (stays_write ..) rfl

theorem Transfers.comesTo {address : Addressing} {act : Act κ φ τ Unit}
    (transfers : Transfers machine word address act) :
    ComesTo machine word (Decoding.loadStore word address)
      (outcome machine (onward machine.nextPc act)) := by
  unfold Transfers at transfers
  unfold Decoding.loadStore Decoding.transfer
  cases codes : Transfer.ofCodes? (word.field 30 2) (word.field 22 2) with
  | none =>
    rw [codes] at transfers
    exact .rejects machine transfers
  | some transfer =>
    rw [codes] at transfers
    exact .proceeds machine transfers (stays_loadStore ..) rfl

theorem comesTo_loadShortOffset :
    ComesTo machine word (Decoding.shortOffset word)
      (outcome machine (onward machine.nextPc (loadShortOffset word))) := by
  unfold Decoding.shortOffset loadShortOffset
  dsimp only
  split
  · apply Transfers.comesTo
    unfold Transfers
    rw [outcome_readSp_bind]
    exact outcome_access ..
  split
  · apply Transfers.comesTo
    unfold Transfers
    rw [outcome_readSp_bind]
    exact outcome_access_bind ..
  split
  · apply Transfers.comesTo
    unfold Transfers
    rw [outcome_readSp_bind]
    exact outcome_access_bind ..
  · exact .rejects machine rfl

theorem comesTo_loadIndexed :
    ComesTo machine word (Decoding.indexed word)
      (outcome machine (onward machine.nextPc (loadIndexed word))) := by
  unfold Decoding.indexed
  cases known : IndexExtend.ofCode? (word.field 13 3) with
  | none =>
    refine .rejects machine ?_
    unfold loadIndexed
    rw [known]
    rfl
  | some extend => exact (transfers_loadIndexed machine word known).comesTo

theorem comesTo_loadLiteral :
    ComesTo machine word (Decoding.unknownIfNone (Decoding.loadLiteral word))
      (outcome machine (onward machine.nextPc (loadLiteral word))) := by
  unfold Decoding.loadLiteral loadLiteral
  cases LiteralLoad.ofCode? (word.field 30 2) with
  | none => exact .rejects machine rfl
  | some load =>
    refine .proceeds machine ?_ (stays_access ..) rfl
    rw [outcome_get_bind, outcome_demand_bind, outcome_access_code]

theorem comesTo_loadPair (family : word.field 26 4 = 0b1010) :
    ComesTo machine word (Decoding.unknownIfNone (Decoding.pair word))
      (outcome machine (onward machine.nextPc (loadPair word))) := by
  have plain : word.bit 26 = (word.field 26 4).getLsbD 0 := by simp [Word.bit, Word.field]
  unfold Decoding.pair loadPair
  rw [plain, family, show (0b1010 : BitVec 4).getLsbD 0 = false from rfl, Bool.or_false]
  split
  · exact .rejects machine rfl
  · refine .proceeds machine ?_ (stays_pair ..) rfl
    rw [outcome_readSp_bind, outcome_bind, outcome_access_code]
    dsimp only
    rw [outcome_bind, outcome_access_code]
    dsimp only [pair]
    cases PairMode.ofCode (word.field 23 2) <;> rfl

theorem comesTo_branch :
    ComesTo machine word (.ok (.branch (word.bit 31) (word.field 0 26)))
      (outcome machine (branch word)) := by
  unfold branch
  cases link : word.bit 31 with
  | false => exact .carriedOut rfl rfl
  | true =>
    refine .carriedOut rfl ?_
    show machine.link.jump (machine.link.relative _) = machine.link.jump (machine.relative _)
    rw [relative, relative, (stays_link machine).pc]

theorem comesTo_branchIf :
    ComesTo machine word (.ok (.branchIf (.ofCode (word.field 0 4)) (word.field 5 19)))
      (outcome machine (branchIf word machine.nextPc)) := by
  unfold branchIf
  rw [outcome_get_bind]
  split
  · rename_i holds
    exact .carriedOut rfl (if_pos holds).symm
  · rename_i fails
    exact .carriedOut rfl (if_neg fails).symm

theorem comesTo_compareBranch :
    ComesTo machine word
      (.ok (.compareBranch (Decoding.width word) (word.bit 24) (word.field 5 19)
        (Decoding.rd word)))
      (outcome machine (compareBranch word machine.nextPc)) := by
  unfold compareBranch
  rw [outcome_read_bind]
  split
  · rename_i taken
    exact .carriedOut rfl (if_pos taken).symm
  · rename_i passed
    exact .carriedOut rfl (if_neg passed).symm

/-- A family that is tried next to its executor. -/
theorem ComesTo.ite {condition : Prop} [Decidable condition] {machine : Machine κ φ τ} {word : Word}
    {found other : Except DecodeError Instruction} {act otherwise : Act κ φ τ Int}
    (met : condition → ComesTo machine word found (outcome machine act))
    (failed : ¬condition → ComesTo machine word other (outcome machine otherwise)) :
    ComesTo machine word (if condition then found else other)
      (outcome machine (if condition then act else otherwise)) := by
  split
  · exact met ‹_›
  · exact failed ‹_›

theorem comesTo_family :
    ComesTo machine word (Decoding.families word)
      (outcome machine (family word machine.nextPc)) := by
  unfold Decoding.families family
  refine .ite (fun _ ↦ comesTo_addSubImmediate machine word) fun _ ↦ ?_
  refine .ite (fun _ ↦ comesTo_addSubRegister machine word) fun _ ↦ ?_
  refine .ite (fun _ ↦ comesTo_logical machine word) fun _ ↦ ?_
  refine .ite (fun _ ↦ comesTo_moveWide machine word) fun _ ↦ ?_
  refine .ite (fun _ ↦ comesTo_bitfield machine word) fun _ ↦ ?_
  refine .ite (fun _ ↦ comesTo_extract machine word) fun _ ↦ ?_
  refine .ite (fun _ ↦ comesTo_twoSource machine word) fun _ ↦ ?_
  refine .ite (fun _ ↦ comesTo_multiplyAdd machine word) fun _ ↦ ?_
  refine .ite (fun _ ↦ comesTo_branch machine word) fun _ ↦ ?_
  refine .ite (fun _ ↦ comesTo_branchIf machine word) fun _ ↦ ?_
  refine .ite (fun _ ↦ comesTo_compareBranch machine word) fun _ ↦ ?_
  refine .ite (fun _ ↦ (transfers_loadScaled machine word).comesTo) fun _ ↦ ?_
  refine .ite (fun _ ↦ comesTo_loadIndexed machine word) fun _ ↦ ?_
  refine .ite (fun _ ↦ comesTo_loadShortOffset machine word) fun _ ↦ ?_
  refine .ite (fun _ ↦ comesTo_loadLiteral machine word) fun _ ↦ ?_
  refine .ite (fun paired ↦ comesTo_loadPair machine word paired) fun _ ↦ ?_
  exact .rejected .unknown

/-! ## System words -/

theorem comesTo_branchRegister (op : BranchRegisterOp) (reg : Reg) :
    ComesTo machine word (.ok (.branchRegister op reg))
      (outcome machine (branchRegister op reg machine.nextPc)) := by
  unfold branchRegister
  rw [outcome_get_bind]
  cases op with
  | br | blr => exact .carriedOut rfl rfl
  | ret =>
    dsimp only
    split
    · rename_i outermost
      exact .halted rfl (if_pos outermost).symm
    · rename_i inner
      exact .carriedOut rfl (if_neg inner).symm

/-- A service comes to an end, or a console fails in the middle of it. -/
theorem comesTo_serve {number : BitVec 16} {service : Service}
    (known : Service.ofNumber? number.toNat = some service) :
    ComesTo machine word (.ok (.exception .svc number))
      (outcome machine (onward machine.nextPc (serve number service))) := by
  obtain ⟨answer, given⟩ : ∃ answer, answer = Service.run machine.config service
    (fun index ↦ (machine.registers.read (BitVec.ofNat 5 index)).toNat)
    (machine.world.note .debug "armlet.emulator.extended"
      ("extended opcode 0x" ++ Text.hexLower 0 number.toNat ++ " (" ++ service.name ++ ")")) :=
    ⟨_, rfl⟩
  have called : machine.execute (.exception .svc number) =
      settle { machine with world := answer.2 } answer.1 := by
    rw [given, ← Service.dispatch_of_known known]
    exact machine.serviceCall_eq number
  obtain ⟨result, world⟩ := answer
  rw [onward, outcome_bind, serve, outcome_get_bind]
  dsimp only
  rw [← given]
  obtain (none | value) | _ | cause := result
  · exact .carriedOut rfl called.symm
  · refine .carriedOut rfl (Eq.trans ?_ called.symm)
    exact (stays_write { machine with world } .w64 0 (BitVec.ofInt 64 value)).proceed_eq
  · exact .halted rfl called.symm
  · exact .brokenOff (Service.cause_run _ _ _ (congrArg Prod.fst given.symm)) rfl called.symm

theorem comesTo_serviceCall (number : BitVec 16) :
    ComesTo machine word (.ok (.exception .svc number))
      (outcome machine (onward machine.nextPc (serviceCall number))) := by
  unfold serviceCall
  cases known : Service.ofNumber? number.toNat with
  | none =>
    refine .refused ?_
    simp only [Machine.execute, Machine.serviceCall, Service.dispatch, known]
  | some service => exact comesTo_serve machine word known

theorem comesTo_system {instruction : Instruction}
    (found : Decoding.system? word = some instruction) :
    ComesTo machine word (.ok instruction)
      (outcome machine (system instruction machine.nextPc)) := by
  unfold Decoding.system? at found
  split at found
  · cases found
    exact .carriedOut rfl rfl
  rcases Option.or_eq_some_iff.mp found with barrier | ⟨-, others⟩
  · unfold Decoding.barrier? at barrier
    split at barrier
    · obtain ⟨kind, -, rfl⟩ := Option.map_eq_some_iff.mp barrier
      exact .carriedOut rfl rfl
    · cases barrier
  rcases Option.or_eq_some_iff.mp others with branch | ⟨-, exception⟩
  · unfold Decoding.branchRegister? at branch
    split at branch
    · obtain ⟨op, -, rfl⟩ := Option.map_eq_some_iff.mp branch
      exact comesTo_branchRegister machine word op _
    · cases branch
  · unfold Decoding.exception? at exception
    split at exception
    · obtain ⟨op, -, rfl⟩ := Option.map_eq_some_iff.mp exception
      cases op with
      | svc => exact comesTo_serviceCall machine word _
      | hvc | smc => exact .carriedOut rfl rfl
    · cases exception

theorem comesTo_carryOut :
    ComesTo machine word (decode word) (outcome machine (carryOut word)) := by
  unfold decode carryOut
  rw [outcome_get_bind]
  cases found : Decoding.system? word with
  | some instruction => exact comesTo_system machine word found
  | none => exact comesTo_family machine word

theorem outcome_execute :
    outcome machine (execute word) =
      match outcome machine (carryOut word) with
      | (.ok target, later) => (.ok (), if later.isRunning then later.jump target else later)
      | (.error cause, later) => (.error cause, later) := by
  unfold execute
  rw [outcome_bind]
  obtain ⟨cause | target, later⟩ := outcome machine (carryOut word)
  · rfl
  · dsimp only
    rw [outcome_get_bind]
    split <;> rfl

end Executor

/-! ## Steps -/

namespace Machine

theorem raiseAt_eq {machine later : Machine κ φ τ} (same : later.registers = machine.registers)
    (cause : FaultCause) : later.raiseAt machine.registers.pc cause = later.raise cause := by
  rw [raise, ← same]
  rfl

variable [Console κ] [FileStore φ] [Clock τ]

/-- What the acts on a word come to is what the word does. If they end with a fault, it has changed
nothing before it or is one of the console. -/
theorem performInOrder_cases {machine : Machine κ φ τ} (running : machine.status = .running)
    (word : Word) :
    machine.performInOrder word = ((machine.perform word).isRunning, machine.perform word) ∧
      ((∃ cause, machine.perform word = machine.raise cause) ∨
        (∃ cause later, cause.isConsole = true ∧ machine.perform word = raise later cause) ∨
        ∀ fault, (machine.perform word).status ≠ .faulted fault) := by
  have comes := Executor.comesTo_carryOut machine word
  rw [performInOrder, Executor.outcome_execute]
  unfold perform
  generalize decode word = decoded at comes ⊢
  generalize Executor.outcome machine (Executor.carryOut word) = came at comes ⊢
  cases comes with
  | rejected error => exact ⟨rfl, .inl ⟨_, rfl⟩⟩
  | @carriedOut instruction target later status done =>
    have goes : later.isRunning = true := by rw [isRunning, status, running]; rfl
    have runs : (machine.execute instruction).status = .running := by
      rw [← done]
      exact status.trans running
    dsimp only
    rw [if_pos goes, done, count_of_running runs]
    refine ⟨?_, .inr (.inr fun fault faulted ↦ ?_)⟩
    · simp only [isRunning, runs]
      rfl
    · rw [runs] at faulted
      cases faulted
  | @halted instruction target later status done =>
    have stops : later.isRunning = false := by rw [isRunning, status]; rfl
    dsimp only
    rw [if_neg (by simp [stops]), if_neg (by simp [stops]), ← done, count,
      if_neg (by simp [stops])]
    exact ⟨Prod.ext stops.symm rfl, .inr (.inr fun fault ↦ by simp [status])⟩
  | @refused instruction cause done =>
    dsimp only
    rw [← done, count_raise]
    exact ⟨rfl, .inl ⟨cause, rfl⟩⟩
  | @brokenOff instruction cause later console registers done =>
    dsimp only
    rw [raiseAt_eq registers, ← done, count_raise]
    exact ⟨rfl, .inr (.inl ⟨cause, later, console, rfl⟩)⟩

theorem stepInOrder_eq {η : Type} (hook : Hook η) (state : η) (machine : Machine κ φ τ) :
    machine.stepInOrder hook state = machine.stepWatched hook state := by
  unfold stepInOrder stepWatched
  cases fetched : machine.fetch with
  | error stopped => rfl
  | ok word =>
    dsimp only
    rw [(performInOrder_cases (running_of_fetch fetched) word).1]

/--
A fault that does not come from the console leaves the machine as it was. Only its status is another
one, with the fault at the address of the instruction, and the fault is logged.
-/
theorem stepInOrder_atomic {η : Type} (hook : Hook η) (state : η) {machine : Machine κ φ τ}
    {fault : Fault} (running : machine.status = .running)
    (faulted : (machine.stepInOrder hook state).2.1.status = .faulted fault)
    (inside : fault.cause.isConsole = false) :
    machine.stepInOrder hook state = machine.stepWatched hook state ∧
      (machine.stepInOrder hook state).1 = false ∧
      (machine.stepInOrder hook state).2.1 =
        { machine with
          status := .faulted fault
          world := { machine.world with
            log := machine.world.log.push
              ⟨.warning, "armlet.emulator.cpu", "execution fault: " ++ fault.text⟩ } } ∧
      fault.pc = machine.registers.pc := by
  refine ⟨stepInOrder_eq hook state machine, ?_⟩
  -- Whatever raises the fault raises it on the machine as the step found it.
  suffices raised : ∃ cause state',
      machine.stepInOrder hook state = (false, machine.raise cause, state') by
    obtain ⟨cause, state', stepped⟩ := raised
    rw [stepped] at faulted ⊢
    cases faulted
    exact ⟨rfl, rfl, rfl⟩
  unfold stepInOrder at faulted ⊢
  cases fetched : machine.fetch with
  | error stopped =>
    rw [fetched] at faulted
    obtain rfl | ⟨cause, rfl⟩ | rfl := eq_of_fetch_error fetched
    · exact nomatch running.symm.trans faulted
    · exact ⟨cause, state, rfl⟩
    · exact nomatch faulted
  | ok word =>
    rw [fetched] at faulted
    obtain ⟨same, cases⟩ := performInOrder_cases running word
    dsimp only at faulted ⊢
    rw [same] at faulted ⊢
    split at faulted
    · rename_i goes
      rw [if_pos goes]
      obtain ⟨cause, raised⟩ | ⟨cause, later, console, raised⟩ | never := cases
      · rw [raised]
        exact ⟨cause, _, rfl⟩
      · dsimp only at faulted
        rw [raised] at faulted
        cases faulted
        exact absurd inside (by simp [console])
      · exact absurd faulted (never fault)
    · exact nomatch running.symm.trans faulted

/-- A load of a signed double word, which has no meaning, does not write its base back. -/
theorem stepInOrder_atomic_signedDoubleWord :
    let machine := ofWord 0xf88087e0
    (machine.stepInOrder unwatched ()).2.1.status = .faulted ⟨.invalidTransfer, 0⟩ ∧
      (machine.stepInOrder unwatched ()).2.1.registers = machine.registers := by
  have faulted : ((ofWord 0xf88087e0).stepInOrder unwatched ()).2.1.status =
      .faulted ⟨.invalidTransfer, 0⟩ := by
    rw [stepInOrder_eq]
    decide +kernel
  refine ⟨faulted, ?_⟩
  rw [(stepInOrder_atomic unwatched () rfl faulted rfl).2.2.1]

end Machine

end MiniA64
