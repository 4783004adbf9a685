import MiniA64.Isa.Decoding
import MiniA64.Machine.Arithmetic
import MiniA64.Machine.Basic
import MiniA64.Machine.Services

/-!
# Executing instructions

What each instruction does to the machine. Execution is total: everything that can be wrong with
a word is found by decoding it, and of the instructions only a supervisor call can fault.
-/

namespace MiniA64

namespace Machine

variable {κ φ τ : Type}

/-- The address after the current instruction. -/
def nextPc (machine : Machine κ φ τ) : Int := machine.registers.pc + 4

def jump (machine : Machine κ φ τ) (target : Int) : Machine κ φ τ :=
  { machine with registers := { machine.registers with pc := Registers.wrap target } }

def proceed (machine : Machine κ φ τ) : Machine κ φ τ := machine.jump machine.nextPc

/-- The address at a distance in words from the current instruction. -/
def relative (machine : Machine κ φ τ) {bits : Nat} (offset : BitVec bits) : Int :=
  machine.registers.pc + offset.toInt * 4

def withRegisters (machine : Machine κ φ τ) (registers : Registers) : Machine κ φ τ :=
  { machine with registers }

def setFlags (machine : Machine κ φ τ) (flags : Flags) : Machine κ φ τ :=
  machine.withRegisters { machine.registers with flags }

def write (machine : Machine κ φ τ) (width : Width) (reg : Reg) (value : BitVec width.bits) :
    Machine κ φ τ :=
  machine.withRegisters (machine.registers.writeAt width reg value)

def writeSp (machine : Machine κ φ τ) (width : Width) (reg : Reg) (value : BitVec width.bits) :
    Machine κ φ τ :=
  machine.withRegisters (machine.registers.writeSpAt width reg value)

def link (machine : Machine κ φ τ) : Machine κ φ τ :=
  { machine with
    registers := machine.registers.write Reg.link (BitVec.ofInt 64 machine.nextPc)
    depth := machine.depth + 1 }

/-- The register operand of a data-processing instruction after its shift. -/
def shifted (machine : Machine κ φ τ) (width : Width) (kind : ShiftKind) (amount : BitVec 6)
    (reg : Reg) : BitVec width.bits :=
  Arithmetic.shift kind (machine.registers.readAt width reg) amount.toNat

def addSubImmediate (machine : Machine κ φ τ) (width : Width) (op : AddSubOp)
    (setsFlags shifted : Bool) (immediate : BitVec 12) (rn rd : Reg) : Machine κ φ τ :=
  let operand := BitVec.ofNat width.bits (immediate.toNat * if shifted then 2 ^ 12 else 1)
  let (result, flags) := Arithmetic.addSub op (machine.registers.readSpAt width rn) operand
  if setsFlags then (machine.setFlags flags).write width rd result
  else machine.writeSp width rd result

def addSubRegister (machine : Machine κ φ τ) (width : Width) (op : AddSubOp) (setsFlags : Bool)
    (shift : LinearShift) (amount : BitVec 6) (rm rn rd : Reg) : Machine κ φ τ :=
  let operand := machine.shifted width shift.kind amount rm
  let (result, flags) := Arithmetic.addSub op (machine.registers.readAt width rn) operand
  (if setsFlags then machine.setFlags flags else machine).write width rd result

def logical (machine : Machine κ φ τ) (width : Width) (op : LogicalOp) (invert : Bool)
    (shift : ShiftKind) (amount : BitVec 6) (rm rn rd : Reg) : Machine κ φ τ :=
  let shifted := machine.shifted width shift amount rm
  let operand := if invert then ~~~shifted else shifted
  let result := Arithmetic.logical op (machine.registers.readAt width rn) operand
  (if op = .ands then machine.setFlags (Arithmetic.logicalFlags result) else machine).write
    width rd result

def branchRegister (machine : Machine κ φ τ) (op : BranchRegisterOp) (rn : Reg) :
    Machine κ φ τ :=
  let target : Int := (machine.registers.read rn).toNat
  match op with
  | .br => machine.jump target
  | .blr => machine.link.jump target
  | .ret =>
    if machine.depth = 0 then
      (machine.note .debug "ret with no outstanding call: halting").halt
    else { machine with depth := machine.depth - 1 }.jump target

/-- A supervisor call with its result for the first register. -/
def serviceCall [Console κ] [FileStore φ] [Clock τ] (machine : Machine κ φ τ)
    (number : BitVec 16) : Machine κ φ τ :=
  let registers := machine.registers
  let argument : Service.Arguments := fun index ↦
    (registers.read (BitVec.ofNat 5 index)).toNat
  let (result, world) := Service.dispatch machine.config number.toNat argument machine.world
  let machine := { machine with world }
  match result with
  | .done none => machine.proceed
  | .done (some value) => (machine.write .w64 0 (BitVec.ofInt 64 value)).proceed
  | .halt => machine.halt
  | .fault cause => machine.raise cause

/-- One access. A rejected load leaves the register and a rejected store leaves memory. -/
def access (machine : Machine κ φ τ) (transfer : Transfer) (address : BitVec 64) (rt : Reg) :
    Machine κ φ τ :=
  let count := transfer.byteCount
  match transfer with
  | .store _ =>
    let data := toLittleEndian count (machine.registers.read rt).toNat
    { machine with world := machine.world.write address.toNat data }
  | _ =>
    let (data, world) := machine.world.read address.toNat count
    let machine := { machine with world }
    match data with
    | none => machine
    | some data =>
      let raw := BitVec.ofNat (8 * count) (littleEndian data)
      match transfer with
      | .loadSigned64 _ => machine.write .w64 rt (raw.signExtend 64)
      | .loadSigned32 _ => machine.write .w32 rt (raw.signExtend 32)
      | _ => machine.write .w64 rt (raw.setWidth 64)

/-- The value of an index register after widening. -/
def indexValue (machine : Machine κ φ τ) (rm : Reg) (extend : IndexExtend) : BitVec 64 :=
  let value := machine.registers.read rm
  match extend with
  | .uxtw => (value.setWidth 32).setWidth 64
  | .sxtw => (value.setWidth 32).signExtend 64
  | .uxtx => value
  | .sxtx => value

def setBase (machine : Machine κ φ τ) (rn : Reg) (value : BitVec 64) : Machine κ φ τ :=
  machine.writeSp .w64 rn value

def loadStore (machine : Machine κ φ τ) (transfer : Transfer) (address : Addressing)
    (rn rt : Reg) : Machine κ φ τ :=
  let base := machine.registers.readSp rn
  match address with
  | .scaled offset =>
    machine.access transfer (base + BitVec.ofNat 64 (offset.toNat * transfer.byteCount)) rt
  | .unscaled offset => machine.access transfer (base + offset.signExtend 64) rt
  | .postIndex offset => (machine.access transfer base rt).setBase rn (base + offset.signExtend 64)
  | .preIndex offset =>
    (machine.access transfer (base + offset.signExtend 64) rt).setBase rn
      (base + offset.signExtend 64)
  | .index rm extend scaled =>
    let index := machine.indexValue rm extend
    machine.access transfer (base + if scaled then index <<< transfer.size else index) rt

def pairTransfer (width : Width) (load : Bool) : Transfer :=
  match width, load with
  | .w32, false => .store 2
  | .w32, true => .load 2
  | .w64, false => .store 3
  | .w64, true => .load 3

/-- Two accesses side by side; the second sees what the first has loaded. -/
def pair (machine : Machine κ φ τ) (width : Width) (load : Bool) (mode : PairMode)
    (offset : BitVec 7) (rt2 rn rt : Reg) : Machine κ φ τ :=
  let transfer := pairTransfer width load
  let base := machine.registers.readSp rn
  let moved := base + BitVec.ofInt 64 (offset.toInt * transfer.byteCount)
  let first := if mode = .postIndex then base else moved
  let second := first + BitVec.ofNat 64 transfer.byteCount
  let done := (machine.access transfer first rt).access transfer second rt2
  match mode with
  | .postIndex => done.setBase rn moved
  | .preIndex => done.setBase rn moved
  | .offset => done
  | .plainOffset => done

def execute [Console κ] [FileStore φ] [Clock τ] (instruction : Instruction)
    (machine : Machine κ φ τ) : Machine κ φ τ :=
  match instruction with
  | .hint _ => machine.proceed
  | .barrier _ _ => machine.proceed
  | .branchRegister op rn => machine.branchRegister op rn
  | .exception .svc number => machine.serviceCall number
  | .exception _ _ => machine.proceed
  | .addSubImmediate width op setsFlags shifted immediate rn rd =>
    (machine.addSubImmediate width op setsFlags shifted immediate rn rd).proceed
  | .addSubRegister width op setsFlags shift amount rm rn rd =>
    (machine.addSubRegister width op setsFlags shift amount rm rn rd).proceed
  | .logical width op invert shift amount rm rn rd =>
    (machine.logical width op invert shift amount rm rn rd).proceed
  | .moveWide width op window immediate rd =>
    (machine.write width rd
      (Arithmetic.moveWide op window immediate (machine.registers.readAt width rd))).proceed
  | .bitfield width signed rotate last rn rd =>
    (machine.write width rd
      (Arithmetic.bitfield signed (machine.registers.readAt width rn) rotate last)).proceed
  | .extract width low rm rn rd =>
    (machine.write width rd
      (Arithmetic.extract (machine.registers.readAt width rn)
        (machine.registers.readAt width rm) low)).proceed
  | .twoSource width op rm rn rd =>
    (machine.write width rd
      (Arithmetic.twoSource op (machine.registers.readAt width rn)
        (machine.registers.readAt width rm))).proceed
  | .multiplyAdd width subtract rm ra rn rd =>
    (machine.write width rd
      (Arithmetic.multiplyAdd subtract (machine.registers.readAt width ra)
        (machine.registers.readAt width rn) (machine.registers.readAt width rm))).proceed
  | .branch link offset => (if link then machine.link else machine).jump (machine.relative offset)
  | .branchIf condition offset =>
    if condition.holds machine.registers.flags then machine.jump (machine.relative offset)
    else machine.proceed
  | .compareBranch width nonzero offset rt =>
    if (machine.registers.readAt width rt != 0) = nonzero then
      machine.jump (machine.relative offset)
    else machine.proceed
  | .loadStore transfer address rn rt => (machine.loadStore transfer address rn rt).proceed
  | .loadLiteral load offset rt =>
    (machine.access load.transfer (BitVec.ofInt 64 (machine.relative offset)) rt).proceed
  | .pair width load mode offset rt2 rn rt =>
    (machine.pair width load mode offset rt2 rn rt).proceed

end Machine

end MiniA64
