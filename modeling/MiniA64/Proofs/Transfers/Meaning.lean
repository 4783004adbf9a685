import MiniA64.Machine.World
import MiniA64.Proofs.Assembly.Checks
import MiniA64.Proofs.Machine.Accesses
import MiniA64.Proofs.Machine.NamedRegisters
import MiniA64.Proofs.Machine.Residues

/-!
# What loads and stores mean

The meaning of a load or store in integers, from its mnemonic and its operands as they are
written. A statement denotes one or two accesses, each with its address and its number of bytes,
and perhaps a new value of the base register. The accesses take place one after the other and the
base register is written last, so the order is visible when the registers of a statement coincide.
-/

namespace MiniA64

namespace Transfers

/-- One access of some bytes at an address, on behalf of a register. -/
structure Access where
  isStore : Bool
  signed : Bool
  count : Nat
  address : Nat
  register : RegisterName

/-- A loaded number, read as a signed one if the load extends the sign. -/
def Access.extended (access : Access) (raw : Nat) : Int :=
  if access.signed && 2 ^ (8 * access.count - 1) ≤ raw then raw - 256 ^ access.count else raw

variable {κ φ τ : Type}

/-- An access that is rejected only leaves a record in the log. -/
def Access.run (access : Access) (state : Registers × World κ φ τ) : Registers × World κ φ τ :=
  match state.2.memory.translate access.address access.count with
  | none =>
    let action := if access.isStore then "write" else "read"
    (state.1, state.2.noteDropped action access.count access.address)
  | some offset =>
    if access.isStore then
      let value := state.1.valueOf access.register
      (state.1, { state.2 with memory := state.2.memory.stored offset access.count value })
    else
      let value := access.extended (state.2.memory.loaded offset access.count)
      (state.1.store access.register (access.register.width.reduce value), state.2)

/-- What a statement does: its accesses in order, and the new value of the base if it has one. -/
structure Plan where
  accesses : List Access
  base : Option (RegisterName × Nat)

def Plan.run (plan : Plan) (state : Registers × World κ φ τ) : Registers × World κ φ τ :=
  let accessed := plan.accesses.foldl (fun state access ↦ access.run state) state
  match plan.base with
  | some (name, value) => (accessed.1.store name value, accessed.2)
  | none => accessed

/-! ## Mnemonics -/

def isStore : TransferName → Bool
  | .str | .strb | .strh => true
  | _ => false

def isSigned : TransferName → Bool
  | .ldrsb | .ldrsh | .ldrsw => true
  | _ => false

/-- The number of bytes of an access, which the register gives if the mnemonic does not. -/
def byteCount (name : TransferName) (register : RegisterName) : Nat :=
  match name with
  | .ldrb | .ldrsb | .strb => 1
  | .ldrh | .ldrsh | .strh => 2
  | .ldrsw => 4
  | .ldr | .str => register.width.bits / 8

def access (name : TransferName) (register : RegisterName) (address : Int) : Access :=
  ⟨isStore name, isSigned name, byteCount name register, Width.w64.reduce address, register⟩

/-! ## Addresses -/

/-- The address of an operand in memory and the new value of the base, if it gets one. -/
def addressOf (registers : Registers) (operand : MemoryOperand) :
    Int × Option (RegisterName × Nat) :=
  let base : Int := registers.valueOf (operand.base.stackName .w64)
  match operand.form with
  | .offset bytes => (base + bytes, none)
  | .index register => (base + registers.valueOf (register.dataName .w64), none)
  | .preIndex bytes =>
    (base + bytes, some (operand.base.stackName .w64, Width.w64.reduce (base + bytes)))
  | .postIndex bytes => (base, some (operand.base.stackName .w64, Width.w64.reduce (base + bytes)))

/--
The address that a program-relative operand denotes. The value of a symbol counts from the place
of its statement, so at that place it is the address itself.
-/
def relativeAddress? (site : Site) (pc : Int) : OperandKind → Option Int
  | .immediate displacement => some (pc + displacement)
  | .symbol name => (site.symbols.value? name).map fun value ↦ value + (pc - site.address)
  | _ => none

/-- The plan of a statement, if it is a load or store. -/
def plan? (mnemonic : Mnemonic) (operands : List OperandKind) (site : Site)
    (registers : Registers) : Option Plan :=
  match mnemonic, operands with
  | .transfer name, [.register rt, .memory operand] =>
    let (address, base) := addressOf registers operand
    some ⟨[access name rt address], base⟩
  | .transfer name, [.register rt, target] =>
    (relativeAddress? site registers.pc target).map fun address ↦
      ⟨[access name rt address], none⟩
  | .unscaledTransfer name, [.register rt, .memory operand] =>
    let (address, base) := addressOf registers operand
    some ⟨[access name rt address], base⟩
  | .pair load, [.register rt, .register rt2, .memory operand] =>
    let name : TransferName := if load then .ldr else .str
    let (address, base) := addressOf registers operand
    some ⟨[access name rt address, access name rt2 (address + byteCount name rt)], base⟩
  | _, _ => none

end Transfers

/-- The mnemonics that access memory. -/
def Mnemonic.isTransfer : Mnemonic → Bool
  | transfer _ | unscaledTransfer _ | pair _ => true
  | _ => false

end MiniA64
