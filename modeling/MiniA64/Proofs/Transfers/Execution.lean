import MiniA64.Proofs.Machine.Stepping
import MiniA64.Proofs.Transfers.Meaning

/-!
# Executing loads and stores

One step on the word of an accepted load or store carries out the plan that the statement denotes.
The offset fields give back the offsets in bytes, each access moves the bytes of its register, and
the base register is written after all accesses, rejected ones included.
-/

namespace MiniA64

theorem Memory.stored_mod (memory : Memory) (offset value : Nat) {count bits : Nat}
    (inside : 8 * count ≤ bits) :
    memory.stored offset count (value % 2 ^ bits) = memory.stored offset count value := by
  simp only [Memory.stored, Memory.mk.injEq, true_and, and_true]
  congr 1
  funext index
  split
  · rename_i within
    exact ofNat_mod_div value (by omega)
  · rfl

namespace Machine

variable {κ φ τ : Type} (machine : Machine κ φ τ)

/-- The machine after accesses that leave these registers and this world. -/
def after (state : Registers × World κ φ τ) : Machine κ φ τ :=
  { machine with registers := state.1, world := state.2 }

end Machine

namespace Transfers

open Width

variable {κ φ τ : Type} (machine : Machine κ φ τ) {rt : RegisterName}

/-- A register holds the low bits of what lies in its slot. -/
theorem valueOf_eq_mod (registers : Registers) (notStack : rt.isStackPointer = false) :
    registers.valueOf rt = (registers.read rt.number).toNat % 2 ^ rt.width.bits := by
  rw [← registers.toNat_readAt ⟨notStack, rfl⟩, Registers.readAt, BitVec.toNat_setWidth]

theorem access_store (size : Fin 4) (address : BitVec 64) (notStack : rt.isStackPointer = false)
    (fits : 8 * 2 ^ size.val ≤ rt.width.bits) :
    machine.access (.store size) address rt.number =
      machine.after (Access.run ⟨true, false, 2 ^ size.val, address.toNat, rt⟩
        (machine.registers, machine.world)) := by
  have length : ((toLittleEndian (2 ^ size.val)
      (machine.registers.read rt.number).toNat).length : Int) = (2 ^ size.val : Nat) := by
    rw [length_toLittleEndian]
  simp only [Machine.access, World.write, Transfer.byteCount, Transfer.size, length, Access.run]
  cases translated : machine.world.memory.translate address.toNat (2 ^ size.val : Nat) with
  | none => rfl
  | some offset =>
    have inside := Memory.end_le_of_translate translated
    simp only [Memory.put_toLittleEndian _ inside, valueOf_eq_mod machine.registers notStack,
      Memory.stored_mod _ _ _ fits, if_true, Machine.after]

/-- The number that a load puts into its register. -/
def widened (transfer : Transfer) (raw : Nat) : Nat :=
  let word := BitVec.ofNat (8 * transfer.byteCount) raw
  match transfer with
  | .loadSigned64 _ => (word.signExtend 64).toNat
  | .loadSigned32 _ => (word.signExtend 32).toNat
  | _ => (word.setWidth 64).toNat

theorem access_load {transfer : Transfer} (address : BitVec 64)
    (notStack : rt.isStackPointer = false) (load : transfer.code ≠ 0) :
    machine.access transfer address rt.number =
      match machine.world.read address.toNat transfer.byteCount with
      | (none, world) => { machine with world }
      | (some data, world) =>
        { machine with
          world
          registers := machine.registers.store rt (widened transfer (littleEndian data)) } := by
  have narrow (world : World κ φ τ) (value : BitVec 32) :
      ({ machine with world }).write .w32 rt.number value =
        { machine with world, registers := machine.registers.store rt value.toNat } := by
    have below : value.toNat < 2 ^ 64 := Nat.lt_trans value.isLt (by decide)
    rw [Machine.write, Registers.writeAt, Registers.write_number _ notStack,
      BitVec.toNat_setWidth, Nat.mod_eq_of_lt below]
    rfl
  have wide (world : World κ φ τ) (value : BitVec 64) :
      ({ machine with world }).write .w64 rt.number value =
        { machine with world, registers := machine.registers.store rt value.toNat } := by
    rw [Machine.write, Registers.writeAt, Registers.write_number _ notStack, BitVec.setWidth_eq]
    rfl
  rcases hread : machine.world.read address.toNat transfer.byteCount with ⟨_ | data, world⟩
  · cases transfer with
    | store size => exact absurd rfl load
    | _ => simp only [Machine.access, hread]
  · cases transfer with
    | store size => exact absurd rfl load
    | load size => simp only [Machine.access, hread, wide, widened]
    | loadSigned64 size => simp only [Machine.access, hread, wide, widened]
    | loadSigned32 size => simp only [Machine.access, hread, narrow, widened]

/-- Extending the sign of some bytes. -/
theorem toNat_signExtend (width : Width) {count raw : Nat} (some : 0 < count)
    (h : raw < 256 ^ count) :
    ((BitVec.ofNat (8 * count) raw).signExtend width.bits).toNat =
      width.reduce (if 2 ^ (8 * count - 1) ≤ raw then raw - 256 ^ count else raw) := by
  have power : 256 ^ count = 2 ^ (8 * count) := by rw [show 256 = 2 ^ 8 from rfl, ← Nat.pow_mul]
  have half : 2 * 2 ^ (8 * count - 1) = 2 ^ (8 * count) := by
    rw [← Nat.pow_succ', Nat.succ_eq_add_one, Nat.sub_add_cancel (by omega)]
  have number : (BitVec.ofNat (8 * count) raw).toNat = raw := by
    rw [BitVec.toNat_ofNat, ← power, Nat.mod_eq_of_lt h]
  rw [BitVec.signExtend, toNat_ofInt, BitVec.toInt_eq_toNat_cond, number]
  congr 1
  have cast : ((256 : Int) ^ count) = ((2 ^ (8 * count) : Nat) : Int) := by
    rw [← power, Int.natCast_pow]
    rfl
  rw [cast]
  split <;> split <;> omega

theorem byteCount_eq {name : TransferName} {transfer : Transfer}
    (h : name.transfer? rt.width = some transfer) : transfer.byteCount = byteCount name rt := by
  revert h
  cases name <;> cases hw : rt.width <;> intro h <;> cases h <;> simp [byteCount, hw] <;> rfl

/-- The bytes of an access fit its register. -/
theorem byteCount_le (name : TransferName) (register : RegisterName)
    (h : name.transfer? register.width ≠ none) :
    8 * byteCount name register ≤ register.width.bits := by
  revert h
  cases name <;> cases hw : register.width <;>
    simp [byteCount, hw, TransferName.transfer?, Width.bits]

/-- A mnemonic and the width of its register agree with a transfer on what is done. -/
def Agrees (name : TransferName) (width : Width) : Transfer → Prop
  | .store _ => isStore name = true ∧ isSigned name = false
  | .load _ => isStore name = false ∧ isSigned name = false
  | .loadSigned64 _ => isStore name = false ∧ isSigned name = true ∧ width = .w64
  | .loadSigned32 _ => isStore name = false ∧ isSigned name = true ∧ width = .w32

theorem agrees_of_transfer? {name : TransferName} {width : Width} {transfer : Transfer}
    (h : name.transfer? width = some transfer) : Agrees name width transfer := by
  cases name <;> cases width <;> cases h <;> simp [Agrees, isStore, isSigned]

theorem widened_eq {name : TransferName} {transfer : Transfer} {raw address : Nat}
    (h : name.transfer? rt.width = some transfer) (load : transfer.code ≠ 0)
    (below : raw < 256 ^ byteCount name rt) :
    widened transfer raw = rt.width.reduce
      (Access.extended ⟨isStore name, isSigned name, byteCount name rt, address, rt⟩ raw) := by
  have kind := agrees_of_transfer? h
  have fits := byteCount_le name rt (by simp [h])
  rw [← byteCount_eq h] at below fits ⊢
  have some : 0 < transfer.byteCount := Nat.two_pow_pos _
  have power : 256 ^ transfer.byteCount = 2 ^ (8 * transfer.byteCount) := by
    rw [show 256 = 2 ^ 8 from rfl, ← Nat.pow_mul]
  cases transfer with
  | store size => exact absurd rfl load
  | load size =>
    have narrow : raw < 2 ^ rt.width.bits :=
      Nat.lt_of_lt_of_le (power ▸ below) (Nat.pow_le_pow_right (by decide) fits)
    have wide : raw < 2 ^ 64 :=
      Nat.lt_of_lt_of_le narrow (Nat.pow_le_pow_right (by decide) (by cases rt.width <;> decide))
    simp only [widened, Access.extended, kind.2, Bool.false_and, Bool.false_eq_true, if_false,
      reduce_natCast, BitVec.toNat_setWidth, BitVec.toNat_ofNat, Nat.mod_eq_of_lt narrow,
      Nat.mod_eq_of_lt (power ▸ below), Nat.mod_eq_of_lt wide]
  | loadSigned64 size =>
    have extended := toNat_signExtend .w64 some below
    simpa [widened, Access.extended, kind.2] using extended
  | loadSigned32 size =>
    have extended := toNat_signExtend .w32 some below
    simpa [widened, Access.extended, kind.2] using extended

/-- An access of the machine is an access as the mnemonic means it. -/
theorem access_eq {name : TransferName} {transfer : Transfer} (address : Int)
    (h : name.transfer? rt.width = some transfer) (notStack : rt.isStackPointer = false) :
    machine.access transfer (BitVec.ofInt 64 address) rt.number =
      machine.after ((access name rt address).run (machine.registers, machine.world)) := by
  rw [access, ← toNat_ofInt .w64]
  generalize BitVec.ofInt 64 address = address
  have kind := agrees_of_transfer? h
  have count := byteCount_eq h
  by_cases load : transfer.code = 0
  · cases transfer with
    | store size =>
      have fits := byteCount_le name rt (by simp [h])
      rw [← count] at fits ⊢
      rw [kind.1, kind.2]
      exact access_store machine size address notStack fits
    | _ => cases load
  · have loads : isStore name = false := by
      cases transfer with
      | store size => exact absurd rfl load
      | _ => exact kind.1
    rw [access_load machine address notStack load, count]
    simp only [World.read, Memory.read, Access.run]
    cases translated : machine.world.memory.translate address.toNat (byteCount name rt) with
    | none =>
      simp only [Option.map_none, loads, Machine.after, Bool.false_eq_true, if_false]
    | some offset =>
      have inside := Memory.end_le_of_translate translated
      have below := machine.world.memory.loaded_lt offset (byteCount name rt)
      simp only [Option.map_some, Memory.littleEndian_slice inside, loads, Machine.after,
        Bool.false_eq_true, if_false]
      rw [@widened_eq rt name transfer _ address.toNat h load below, loads]

/-! ## Addresses -/

theorem toNat_readSp (registers : Registers) (reg : Reg) :
    (registers.readSp reg).toNat = registers.valueOf (reg.stackName .w64) := by
  have named := registers.toNat_readSpAt (reg.stackAt_stackName .w64)
  rwa [Reg.number_stackName, Registers.readSpAt, BitVec.setWidth_eq] at named

theorem toNat_read (registers : Registers) (reg : Reg) :
    (registers.read reg).toNat = registers.valueOf (reg.dataName .w64) := by
  have named := registers.toNat_readAt (reg.dataAt_dataName .w64)
  rwa [Reg.number_dataName, Registers.readAt, BitVec.setWidth_eq] at named

theorem readSp_eq (registers : Registers) (base : Reg) :
    registers.readSp base = BitVec.ofInt 64 (registers.valueOf (base.stackName .w64)) := by
  rw [← toNat_readSp, BitVec.ofInt_natCast, BitVec.ofNat_toNat, BitVec.setWidth_eq]

/-- An address is the sum of the base and an offset, reduced to 64 bits. -/
theorem readSp_add (registers : Registers) (base : Reg) (offset : Int) :
    registers.readSp base + BitVec.ofInt 64 offset =
      BitVec.ofInt 64 (registers.valueOf (base.stackName .w64) + offset) := by
  rw [BitVec.ofInt_add, ← readSp_eq]

theorem setBase_after (state : Registers × World κ φ τ) (base : Reg) (value : BitVec 64) :
    (machine.after state).setBase base value =
      machine.after (state.1.store (base.stackName .w64) value.toNat, state.2) := by
  have named := state.1.writeSpAt_number (base.stackAt_stackName .w64) value
  rw [Reg.number_stackName] at named
  exact congrArg (fun registers ↦ machine.after (registers, state.2)) named

/-! ## Offsets as they are selected -/

section

open Selection

theorem byteOffset_ok {location : Location} {offset : Int} {slot : ImmediateSlot}
    {field : BitVec 9} (h : byteOffset location offset slot = .ok field) :
    field.toInt = offset := by
  rw [byteOffset] at h
  split at h
  · cases h
  cases h
  exact toInt_ofInt_of_range (by decide) (by omega)

theorem scaledOffset_ok {name : TransferName} {transfer : Transfer} {location : Location}
    {offset : Int} {field : BitVec 12}
    (h : scaledOffset name transfer location offset = .ok field) :
    (field.toNat * transfer.byteCount : Nat) = offset := by
  rw [scaledOffset] at h
  split at h
  · cases h
  split at h
  · cases h
  rename_i multiple range
  cases h
  have field : ((BitVec.ofInt 12 (offset / transfer.byteCount)).toNat : Int) =
      offset / transfer.byteCount := by
    have nonneg : 0 ≤ offset / transfer.byteCount :=
      Int.ediv_nonneg (by omega) (Int.natCast_nonneg _)
    rw [BitVec.toNat_ofInt]
    omega
  rw [Int.natCast_mul, field]
  exact Int.ediv_mul_cancel (Int.dvd_of_emod_eq_zero (Classical.not_not.mp multiple))

theorem pairOffset_ok {width : Width} {location : Location} {offset : Int} {field : BitVec 7}
    (h : pairOffset width location offset = .ok field) :
    field.toInt * (width.bits / 8 : Nat) = offset := by
  rw [pairOffset] at h
  split at h
  · cases h
  split at h
  · cases h
  rename_i multiple range
  cases h
  rw [toInt_ofInt_of_range (by decide) (by omega)]
  exact Int.ediv_mul_cancel (Int.dvd_of_emod_eq_zero (Classical.not_not.mp multiple))

end

/-! ## Single transfers -/

theorem loadStore_eq {name : TransferName} {transfer : Transfer} {location : Location}
    {operand : MemoryOperand} {address : Addressing}
    (h : name.transfer? rt.width = some transfer) (notStack : rt.isStackPointer = false)
    (haddress : Selection.addressing name transfer location operand.form = .ok address) :
    machine.loadStore transfer address operand.base rt.number =
      machine.after (Plan.run
        ⟨[access name rt (addressOf machine.registers operand).1],
          (addressOf machine.registers operand).2⟩
        (machine.registers, machine.world)) := by
  obtain ⟨base, form⟩ := operand
  have offsets (bytes : Int) := readSp_add machine.registers base bytes
  cases form with
  | offset bytes =>
    obtain ⟨field, hfield, result⟩ := Selection.bind_eq_ok.mp haddress
    cases Selection.pure_eq_ok.mp result
    have scaled : BitVec.ofNat 64 (field.toNat * transfer.byteCount) = BitVec.ofInt 64 bytes := by
      rw [← scaledOffset_ok hfield, BitVec.ofInt_natCast]
    simp only [Machine.loadStore, scaled, offsets]
    exact access_eq machine _ h notStack
  | index register =>
    cases Selection.pure_eq_ok.mp haddress
    have value : machine.registers.read register =
        BitVec.ofInt 64 (machine.registers.valueOf (register.dataName .w64)) := by
      rw [← toNat_read, BitVec.ofInt_natCast, BitVec.ofNat_toNat, BitVec.setWidth_eq]
    simp only [Machine.loadStore, Machine.indexValue, Bool.false_eq_true, if_false, value, offsets]
    exact access_eq machine _ h notStack
  | preIndex bytes =>
    obtain ⟨field, hfield, result⟩ := Selection.bind_eq_ok.mp haddress
    cases Selection.pure_eq_ok.mp result
    have extended : field.signExtend 64 = BitVec.ofInt 64 bytes := by
      rw [BitVec.signExtend, byteOffset_ok hfield]
    have executed :=
      access_eq machine (machine.registers.valueOf (base.stackName .w64) + bytes) h notStack
    simp only [Machine.loadStore, extended, offsets]
    rw [executed, setBase_after, toNat_ofInt .w64]
    rfl
  | postIndex bytes =>
    obtain ⟨field, hfield, result⟩ := Selection.bind_eq_ok.mp haddress
    cases Selection.pure_eq_ok.mp result
    have extended : field.signExtend 64 = BitVec.ofInt 64 bytes := by
      rw [BitVec.signExtend, byteOffset_ok hfield]
    have executed := access_eq machine (machine.registers.valueOf (base.stackName .w64)) h notStack
    simp only [Machine.loadStore, extended, offsets]
    rw [readSp_eq, executed, setBase_after, toNat_ofInt .w64]
    rfl

/-! ## Execution of a statement -/

theorem transfer_of_literal {name : TransferName} {width : Width} {transfer : Transfer}
    {load : LiteralLoad} (h : name.transfer? width = some transfer)
    (literal : Selection.literalLoad? name width = some load) : load.transfer = transfer := by
  cases name <;> cases width <;> cases literal <;> cases h <;> rfl

/-- A program-relative operand denotes the address at its displacement. -/
theorem relativeAddress?_of_displacement {site : Site} {pc displacement : Int}
    {target : OperandKind} (h : target.displacement? site = some displacement) :
    relativeAddress? site pc target = some (pc + displacement) := by
  cases target with
  | immediate value =>
    cases h
    rfl
  | symbol name =>
    obtain ⟨value, hvalue, rfl⟩ := Option.map_eq_some_iff.mp h
    simp only [relativeAddress?, hvalue, Option.map_some, Option.some.injEq]
    omega
  | _ => cases h

/-- Such an operand is no operand in memory. -/
theorem plan?_of_displacement {site : Site} {registers : Registers} {name : TransferName}
    {displacement : Int} {target : OperandKind}
    (h : target.displacement? site = some displacement) :
    plan? (.transfer name) [.register rt, target] site registers =
      some ⟨[access name rt (registers.pc + displacement)], none⟩ := by
  have address := @relativeAddress?_of_displacement site registers.pc displacement target h
  cases target with
  | immediate value => simp [plan?, address]
  | symbol name => simp [plan?, address]
  | _ => cases h

/-- A load or store does what it means, whatever memory accepts. -/
theorem exists_plan_transfer [Console κ] [FileStore φ] [Clock τ] {site : Site}
    {name : TransferName} {operands : List Operand} {instruction : Instruction}
    (h : Selection.transfer site name operands = .ok instruction) :
    ∃ plan, plan? (.transfer name) (operands.map (·.kind)) site machine.registers =
        some plan ∧
      machine.execute instruction =
        (machine.after (plan.run (machine.registers, machine.world))).proceed := by
  unfold Selection.transfer at h
  split at h
  · rename_i data target
    obtain ⟨register, hregister, h⟩ := Selection.bind_eq_ok.mp h
    obtain ⟨kind, notStack⟩ := Selection.dataRegister_ok hregister
    split at h
    · cases h
    rename_i transfer htransfer
    split at h
    · rename_i base form htarget
      obtain ⟨address, haddress, result⟩ := Selection.bind_eq_ok.mp h
      cases Selection.pure_eq_ok.mp result
      have executed :=
        @loadStore_eq _ _ _ machine _ _ _ _ ⟨base, form⟩ _ htransfer notStack haddress
      exact ⟨_, by simp [plan?, kind, htarget], congrArg Machine.proceed executed⟩
    · split at h
      · cases h
      rename_i load hload
      obtain ⟨offset, hoffset, result⟩ := Selection.bind_eq_ok.mp h
      cases Selection.pure_eq_ok.mp result
      have displacement := Selection.branchOffset_ok (by decide) hoffset
      have executed := access_eq machine (machine.relative offset) htransfer notStack
      rw [← transfer_of_literal htransfer hload] at executed
      have planned : plan? (.transfer name) ([data, target].map (·.kind)) site
          machine.registers =
            some ⟨[access name register.name (machine.relative offset)], none⟩ := by
        rw [List.map_cons, kind]
        exact plan?_of_displacement displacement
      exact ⟨_, planned, congrArg Machine.proceed executed⟩
  · cases h

theorem exists_plan_unscaled [Console κ] [FileStore φ] [Clock τ] {site : Site}
    {name : TransferName} {operands : List Operand} {instruction : Instruction}
    (h : Selection.unscaledTransfer site name operands = .ok instruction) :
    ∃ plan, plan? (.unscaledTransfer name) (operands.map (·.kind)) site
        machine.registers = some plan ∧
      machine.execute instruction =
        (machine.after (plan.run (machine.registers, machine.world))).proceed := by
  unfold Selection.unscaledTransfer at h
  split at h
  · rename_i data target
    obtain ⟨register, hregister, h⟩ := Selection.bind_eq_ok.mp h
    obtain ⟨kind, notStack⟩ := Selection.dataRegister_ok hregister
    split at h
    · cases h
    rename_i transfer htransfer
    split at h
    · rename_i base bytes htarget
      obtain ⟨field, hfield, result⟩ := Selection.bind_eq_ok.mp h
      cases Selection.pure_eq_ok.mp result
      have extended : field.signExtend 64 = BitVec.ofInt 64 bytes := by
        rw [BitVec.signExtend, byteOffset_ok hfield]
      have executed := access_eq machine
        (machine.registers.valueOf (base.stackName .w64) + bytes) htransfer notStack
      rw [← readSp_add, ← extended] at executed
      have planned : plan? (.unscaledTransfer name) ([data, target].map (·.kind)) site
          machine.registers = some ⟨[access name register.name
            (machine.registers.valueOf (base.stackName .w64) + bytes)], none⟩ := by
        simp [plan?, kind, htarget, addressOf]
      exact ⟨_, planned, congrArg Machine.proceed executed⟩
    · cases h
  · cases h

def pairName (load : Bool) : TransferName := if load then .ldr else .str

theorem transfer?_pairName (load : Bool) (width : Width) :
    (pairName load).transfer? width = some (Machine.pairTransfer width load) := by
  cases load <;> cases width <;> rfl

/-- The accesses of a pair, one after the other. -/
theorem pair_accesses (load : Bool) (address : Int) {rt2 : RegisterName}
    (notStack : rt.isStackPointer = false) (notStack2 : rt2.isStackPointer = false)
    (width2 : rt2.width = rt.width) :
    (machine.access (Machine.pairTransfer rt.width load) (BitVec.ofInt 64 address)
        rt.number).access (Machine.pairTransfer rt.width load)
        (BitVec.ofInt 64 address +
          BitVec.ofNat 64 (Machine.pairTransfer rt.width load).byteCount) rt2.number =
      machine.after (Plan.run
        ⟨[access (pairName load) rt address,
          access (pairName load) rt2 (address + byteCount (pairName load) rt)], none⟩
        (machine.registers, machine.world)) := by
  have first := transfer?_pairName load rt.width
  have second : (pairName load).transfer? rt2.width =
      some (Machine.pairTransfer rt.width load) := by rw [width2, first]
  have next : BitVec.ofInt 64 address +
      BitVec.ofNat 64 (Machine.pairTransfer rt.width load).byteCount =
        BitVec.ofInt 64 (address + byteCount (pairName load) rt) := by
    rw [byteCount_eq first, BitVec.ofInt_add, BitVec.ofInt_natCast]
  have executed := access_eq machine address first notStack
  have executed2 := access_eq
    (machine.after ((access (pairName load) rt address).run (machine.registers, machine.world)))
    (address + byteCount (pairName load) rt) second notStack2
  rw [executed, next, executed2]
  rfl

theorem pair_eq (load : Bool) {mode : PairMode} {bytes : Int} {field : BitVec 7}
    {operand : MemoryOperand} {rt2 : RegisterName}
    (hform : Selection.pairForm? operand.form = some (mode, bytes))
    (hfield : field.toInt * (rt.width.bits / 8 : Nat) = bytes)
    (notStack : rt.isStackPointer = false) (notStack2 : rt2.isStackPointer = false)
    (width2 : rt2.width = rt.width) :
    machine.pair rt.width load mode field rt2.number operand.base rt.number =
      machine.after (Plan.run
        ⟨[access (pairName load) rt (addressOf machine.registers operand).1,
          access (pairName load) rt2
            ((addressOf machine.registers operand).1 + byteCount (pairName load) rt)],
          (addressOf machine.registers operand).2⟩
        (machine.registers, machine.world)) := by
  obtain ⟨base, form⟩ := operand
  have accesses (address : Int) :=
    pair_accesses machine load address notStack notStack2 width2
  have count : (Machine.pairTransfer rt.width load).byteCount = rt.width.bits / 8 := by
    cases load <;> cases rt.width <;> rfl
  have moved : machine.registers.readSp base + BitVec.ofInt 64
      (field.toInt * (Machine.pairTransfer rt.width load).byteCount) =
        BitVec.ofInt 64 (machine.registers.valueOf (base.stackName .w64) + bytes) := by
    rw [count, hfield, readSp_add]
  cases form with
  | offset offset =>
    cases hform
    simp only [Machine.pair, moved]
    exact accesses _
  | index register => cases hform
  | preIndex offset =>
    cases hform
    have executed := accesses (machine.registers.valueOf (base.stackName .w64) + bytes)
    simp only [Machine.pair, moved, reduceCtorEq, if_false]
    rw [executed, setBase_after, toNat_ofInt .w64]
    rfl
  | postIndex offset =>
    cases hform
    have executed := accesses (machine.registers.valueOf (base.stackName .w64))
    simp only [Machine.pair, moved, if_true]
    rw [readSp_eq, executed, setBase_after, toNat_ofInt .w64]
    rfl

theorem exists_plan_pair [Console κ] [FileStore φ] [Clock τ] {site : Site} {load : Bool}
    {operands : List Operand} {instruction : Instruction}
    (h : Selection.pair site load operands = .ok instruction) :
    ∃ plan, plan? (.pair load) (operands.map (·.kind)) site machine.registers =
        some plan ∧
      machine.execute instruction =
        (machine.after (plan.run (machine.registers, machine.world))).proceed := by
  unfold Selection.pair at h
  split at h
  · rename_i first second target
    obtain ⟨rt, hrt, h⟩ := Selection.bind_eq_ok.mp h
    obtain ⟨rt2, hrt2, h⟩ := Selection.bind_eq_ok.mp h
    obtain ⟨width, hwidth, h⟩ := Selection.bind_eq_ok.mp h
    obtain ⟨kind, notStack⟩ := Selection.dataRegister_ok hrt
    obtain ⟨kind2, notStack2⟩ := Selection.dataRegister_ok hrt2
    obtain ⟨rfl, same⟩ := Selection.sameWidth_ok hwidth
    have width2 := same rt2 (by simp)
    split at h
    · cases h
    rename_i base mode bytes htarget
    obtain ⟨field, hfield, result⟩ := Selection.bind_eq_ok.mp h
    cases Selection.pure_eq_ok.mp result
    rw [Selection.pairTarget?] at htarget
    split at htarget
    · rename_i base' form hkind
      obtain ⟨⟨mode', bytes'⟩, hform, result⟩ := Option.map_eq_some_iff.mp htarget
      cases result
      have executed := @pair_eq _ _ _ machine _ load _ _ _ ⟨base, form⟩ _ hform
        (pairOffset_ok hfield) notStack notStack2 width2
      have planned : plan? (.pair load) ([first, second, target].map (·.kind)) site
          machine.registers = some
            ⟨[access (pairName load) rt.name (addressOf machine.registers ⟨base, form⟩).1,
              access (pairName load) rt2.name
                ((addressOf machine.registers ⟨base, form⟩).1 +
                  byteCount (pairName load) rt.name)],
              (addressOf machine.registers ⟨base, form⟩).2⟩ := by
        simp [plan?, kind, kind2, hkind, pairName]
      exact ⟨_, planned, congrArg Machine.proceed executed⟩
    · cases htarget
  · cases h

/-- Every accepted load or store has a plan, and executing it carries the plan out. -/
theorem exists_plan [Console κ] [FileStore φ] [Clock τ] {mnemonic : Mnemonic} {site : Site}
    {operands : List Operand} {instruction : Instruction}
    (transfers : mnemonic.isTransfer = true)
    (h : mnemonic.select site operands = .ok instruction) :
    ∃ plan, plan? mnemonic (operands.map (·.kind)) site machine.registers =
        some plan ∧
      machine.execute instruction =
        (machine.after (plan.run (machine.registers, machine.world))).proceed := by
  cases mnemonic with
  | transfer name => exact exists_plan_transfer machine h
  | unscaledTransfer name => exact exists_plan_unscaled machine h
  | pair load => exact exists_plan_pair machine h
  | _ => cases transfers

/-! ## One step -/

theorem Access.pc_run (access : Access) (state : Registers × World κ φ τ) :
    (access.run state).1.pc = state.1.pc := by
  rw [Access.run]
  split
  · rfl
  split
  · rfl
  · exact state.1.pc_store _

theorem Plan.pc_run (plan : Plan) (state : Registers × World κ φ τ) :
    (plan.run state).1.pc = state.1.pc := by
  have accessed (accesses : List Access) (state : Registers × World κ φ τ) :
      (accesses.foldl (fun state access ↦ access.run state) state).1.pc = state.1.pc := by
    induction accesses generalizing state with
    | nil => rfl
    | cons access rest ih => rw [List.foldl_cons, ih, access.pc_run]
  rw [Plan.run]
  split
  · rw [Registers.pc_store, accessed]
  · exact accessed plan.accesses state

variable {machine}

/-- One step on the word of an accepted load or store: the statement has a plan, registers, memory
and log change by the plan, the program counter moves on, and nothing else changes. -/
theorem step_transfer [Console κ] [FileStore φ] [Clock τ] {mnemonic : Mnemonic} {site : Site}
    {operands : List Operand} {instruction : Instruction}
    (transfers : mnemonic.isTransfer = true)
    (accepted : mnemonic.select site operands = .ok instruction)
    (ready : machine.AboutToExecute instruction.encode) :
    ∃ plan, plan? mnemonic (operands.map (·.kind)) site machine.registers = some plan ∧
      machine.step = (true, { machine with
        registers := { (plan.run (machine.registers, machine.world)).1 with
          pc := (machine.registers.pc + 4) % 2 ^ 64 }
        world := (plan.run (machine.registers, machine.world)).2
        executed := machine.executed + 1 }) := by
  obtain ⟨plan, hplan, executed⟩ := exists_plan machine transfers accepted
  have running : (machine.execute instruction).status = .running := by
    rw [executed]
    exact ready.running
  refine ⟨plan, hplan, ?_⟩
  calc machine.step
    _ = (true, { machine.execute instruction with
        executed := (machine.execute instruction).executed + 1 }) := ready.step_eq running
    _ = _ := by
      rw [executed]
      simp only [Machine.proceed, Machine.jump, Machine.after, Machine.nextPc, Plan.pc_run,
        Registers.wrap]

/-- Loading a word with write-back from the stack pointer. -/
theorem step_load_postIndex :
    let operands : List Operand :=
      [⟨0, default, .register (.general 1 .w32)⟩, ⟨0, default, .memory ⟨31, .postIndex (-8)⟩⟩]
    let site : Site := ⟨.empty, 0, default, "ldr"⟩
    let instruction : Instruction := .loadStore (.load 2) (.postIndex (-8)) 31 1
    let machine := Machine.ofWord instruction.encode
    (Mnemonic.transfer .ldr).select site operands = .ok instruction ∧
      machine.AboutToExecute instruction.encode ∧
      ∃ plan, plan? (.transfer .ldr) (operands.map (·.kind)) site machine.registers =
          some plan ∧
        machine.step = (true, { machine with
          registers := { (plan.run (machine.registers, machine.world)).1 with
            pc := (machine.registers.pc + 4) % 2 ^ 64 }
          world := (plan.run (machine.registers, machine.world)).2
          executed := machine.executed + 1 }) := by
  intro operands site instruction machine
  have transfers : (Mnemonic.transfer .ldr).isTransfer = true := rfl
  have accepted : (Mnemonic.transfer .ldr).select site operands = .ok instruction := rfl
  have ready : machine.AboutToExecute instruction.encode := Machine.aboutToExecute_ofWord _
  exact ⟨accepted, ready, step_transfer transfers accepted ready⟩

end Transfers

end MiniA64
