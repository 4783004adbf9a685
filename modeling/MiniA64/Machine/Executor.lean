import MiniA64.Machine.Run

/-!
# Steps in order

A step as acts that follow one another on one state. The executor of a family takes the fields of
its word as it comes to them: it reads registers, rejects the word where its family has no such
field, accesses memory and writes registers. A fault ends the step with all that has been done
before it.
-/

namespace MiniA64

/-- What changes a machine and may end with a fault, which leaves what has been changed. -/
abbrev Act (κ φ τ : Type) (α : Type) := ExceptT FaultCause (StateM (Machine κ φ τ)) α

namespace Executor

variable {κ φ τ : Type}

/-! ## Acts -/

/-- The answer of an act, and what becomes of the machine. -/
def outcome {α : Type} (machine : Machine κ φ τ) (act : Act κ φ τ α) :
    Except FaultCause α × Machine κ φ τ :=
  (ExceptT.run act).run machine

def reject {α : Type} (word : Word) : Act κ φ τ α := throw (.unknownInstruction word)

/-- What a field means, where it means something. -/
def demand {α : Type} (word : Word) : Option α → Act κ φ τ α
  | some value => pure value
  | none => reject word

def read (width : Width) (reg : Reg) : Act κ φ τ (BitVec width.bits) := do
  return (← get).registers.readAt width reg

def readSp (reg : Reg) : Act κ φ τ (BitVec 64) := do return (← get).registers.readSp reg

def write (width : Width) (reg : Reg) (value : BitVec width.bits) : Act κ φ τ Unit :=
  modify (·.write width reg value)

open Decoding

/-! ## Data processing -/

def addSubImmediate (word : Word) : Act κ φ τ Unit :=
  modify (·.addSubImmediate (width word) (.ofBit (word.bit 30)) (word.bit 29) (word.bit 22)
    (word.field 10 12) (rn word) (rd word))

def addSubRegister (word : Word) : Act κ φ τ Unit := do
  let shift ← demand word (LinearShift.ofKind? (.ofCode (word.field 22 2)))
  modify (·.addSubRegister (width word) (.ofBit (word.bit 30)) (word.bit 29) shift
    (word.field 10 6) (rm word) (rn word) (rd word))

def logical (word : Word) : Act κ φ τ Unit :=
  modify (·.logical (width word) (.ofCode (word.field 29 2)) (word.bit 21)
    (.ofCode (word.field 22 2)) (word.field 10 6) (rm word) (rn word) (rd word))

def moveWide (word : Word) : Act κ φ τ Unit := do
  let op ← demand word (MoveWideOp.ofCode? (word.field 29 2))
  let window := (word.field 21 2).toNat
  if inside : window < (width word).bits / 16 then
    let old ← read (width word) (rd word)
    write (width word) (rd word)
      (Arithmetic.moveWide op ⟨window, inside⟩ (word.field 5 16) old)
  else reject word

def bitfield (word : Word) : Act κ φ τ Unit := do
  if word.bit 29 || word.bit 22 != word.bit 31 then reject word
  else
    let rotate ← demand word (Decoding.bitNumber (width word) (word.field 16 6))
    let last ← demand word (Decoding.bitNumber (width word) (word.field 10 6))
    let value ← read (width word) (rn word)
    write (width word) (rd word) (Arithmetic.bitfield (!word.bit 30) value rotate last)

def extract (word : Word) : Act κ φ τ Unit := do
  if word.bit 22 != word.bit 31 then reject word
  else
    let low ← demand word (Decoding.bitNumber (width word) (word.field 10 6))
    let upper ← read (width word) (rn word)
    let lower ← read (width word) (rm word)
    write (width word) (rd word) (Arithmetic.extract upper lower low)

/-- The operands are read before the operation is known. -/
def twoSource (word : Word) : Act κ φ τ Unit := do
  let first ← read (width word) (rn word)
  let second ← read (width word) (rm word)
  let op ← demand word (TwoSourceOp.ofCode? (word.field 10 6))
  write (width word) (rd word) (Arithmetic.twoSource op first second)

def multiplyAdd (word : Word) : Act κ φ τ Unit := do
  let first ← read (width word) (rn word)
  let second ← read (width word) (rm word)
  let accumulator ← read (width word) (word.field 10 5)
  write (width word) (rd word) (Arithmetic.multiplyAdd (word.bit 15) accumulator first second)

/-! ## Loads and stores -/

/-- One access, whose size and transfer code may not go together. -/
def access (size code : BitVec 2) (rt : Reg) (address : BitVec 64) : Act κ φ τ Unit :=
  match Transfer.ofCodes? size code with
  | some transfer => modify (·.access transfer address rt)
  | none => throw .invalidTransfer

def setBase (rn : Reg) (value : BitVec 64) : Act κ φ τ Unit := modify (·.setBase rn value)

def loadScaled (word : Word) : Act κ φ τ Unit := do
  let base ← readSp (rn word)
  access (word.field 30 2) (word.field 22 2) (rd word)
    (base + BitVec.ofNat 64 ((word.field 10 12).toNat * 2 ^ (word.field 30 2).toNat))

/-- The base is written back after the access. -/
def loadShortOffset (word : Word) : Act κ φ τ Unit := do
  let size := word.field 30 2
  let code := word.field 22 2
  let offset := (word.field 12 9).signExtend 64
  let mode : BitVec 2 := word.field 10 2
  let base ← readSp (rn word)
  if mode = 0 then access size code (rd word) (base + offset)
  else if mode = 1 then
    access size code (rd word) base
    setBase (rn word) (base + offset)
  else if mode = 3 then
    access size code (rd word) (base + offset)
    setBase (rn word) (base + offset)
  else reject word

def loadIndexed (word : Word) : Act κ φ τ Unit := do
  let size := word.field 30 2
  let machine ← get
  let extend ← demand word (IndexExtend.ofCode? (word.field 13 3))
  let index := machine.indexValue (rm word) extend
  let base ← readSp (rn word)
  access size (word.field 22 2) (rd word)
    (base + if word.bit 12 then index <<< size.toNat else index)

def loadLiteral (word : Word) : Act κ φ τ Unit := do
  let machine ← get
  let address := BitVec.ofInt 64 (machine.relative (word.field 5 19))
  let load ← demand word (LiteralLoad.ofCode? (word.field 30 2))
  access load.transfer.sizeCode load.transfer.code (rd word) address

/-- Two accesses, the second of them after the first, and the base at the end. -/
def loadPair (word : Word) : Act κ φ τ Unit := do
  if word.bit 30 || word.bit 26 then reject word
  else
    let transfer := Machine.pairTransfer (width word) (word.bit 22)
    let mode := PairMode.ofCode (word.field 23 2)
    let offset : BitVec 7 := word.field 15 7
    let base ← readSp (rn word)
    let moved := base + BitVec.ofInt 64 (offset.toInt * transfer.byteCount)
    let first := if mode = .postIndex then base else moved
    access transfer.sizeCode transfer.code (rd word) first
    access transfer.sizeCode transfer.code (word.field 10 5)
      (first + BitVec.ofNat 64 transfer.byteCount)
    if mode = .postIndex ∨ mode = .preIndex then setBase (rn word) moved

/-! ## Branches and system words -/

def branch (word : Word) : Act κ φ τ Int := do
  if word.bit 31 then modify (·.link)
  return (← get).relative (word.field 0 26)

def branchIf (word : Word) (next : Int) : Act κ φ τ Int := do
  let machine ← get
  if (Condition.ofCode (word.field 0 4)).holds machine.registers.flags then
    return machine.relative (word.field 5 19)
  else return next

def compareBranch (word : Word) (next : Int) : Act κ φ τ Int := do
  let value ← read (width word) (rd word)
  if (value != 0) = word.bit 24 then return (← get).relative (word.field 5 19)
  else return next

/-- A return that no call belongs to halts. -/
def branchRegister (op : BranchRegisterOp) (reg : Reg) (next : Int) : Act κ φ τ Int := do
  let machine ← get
  let target : Int := (machine.registers.read reg).toNat
  match op with
  | .br => return target
  | .blr =>
    modify (·.link)
    return target
  | .ret =>
    if machine.depth = 0 then
      modify fun machine ↦ (machine.note .debug "ret with no outstanding call: halting").halt
      return next
    else
      modify fun machine ↦ { machine with depth := machine.depth - 1 }
      return target

/-- Carries out a service. A console may fail in the middle of it. -/
def serve [Console κ] [FileStore φ] [Clock τ] (number : BitVec 16) (service : Service) :
    Act κ φ τ Unit := do
  let machine ← get
  let argument : Service.Arguments := fun index ↦
    (machine.registers.read (BitVec.ofNat 5 index)).toNat
  let answer := Service.run machine.config service argument
    (machine.world.note .debug "armlet.emulator.extended"
      ("extended opcode 0x" ++ Text.hexLower 0 number.toNat ++ " (" ++ service.name ++ ")"))
  set { machine with world := answer.2 }
  match answer.1 with
  | .done none => return ()
  | .done (some value) => write .w64 0 (BitVec.ofInt 64 value)
  | .halt => modify (·.halt)
  | .fault cause => throw cause

/-- A supervisor call, whose number is looked at first. -/
def serviceCall [Console κ] [FileStore φ] [Clock τ] (number : BitVec 16) : Act κ φ τ Unit :=
  match Service.ofNumber? number.toNat with
  | none => throw (.unknownService number.toNat)
  | some service => serve number service

def system [Console κ] [FileStore φ] [Clock τ] (instruction : Instruction) (next : Int) :
    Act κ φ τ Int :=
  match instruction with
  | .branchRegister op reg => branchRegister op reg next
  | .exception .svc number => do
    serviceCall number
    return next
  | _ => return next

/-! ## Steps -/

/-- An act after which the next instruction follows. -/
def onward (next : Int) (act : Act κ φ τ Unit) : Act κ φ τ Int := do
  act
  return next

/-- The executors in the order of their families. -/
def family (word : Word) (next : Int) : Act κ φ τ Int :=
  if word.field 23 6 = 0b100010 then onward next (addSubImmediate word)
  else if word.field 24 5 = 0b01011 ∧ word.bit 21 = false then onward next (addSubRegister word)
  else if word.field 24 5 = 0b01010 then onward next (logical word)
  else if word.field 23 6 = 0b100101 then onward next (moveWide word)
  else if word.field 23 6 = 0b100110 then onward next (bitfield word)
  else if word.field 23 8 = 0b00100111 ∧ word.bit 21 = false then onward next (extract word)
  else if word.field 21 10 = 0b0011010110 then onward next (twoSource word)
  else if word.field 21 10 = 0b0011011000 then onward next (multiplyAdd word)
  else if word.field 26 5 = 0b00101 then branch word
  else if word.field 24 8 = 0x54 ∧ word.bit 4 = false then branchIf word next
  else if word.field 25 6 = 0b011010 then compareBranch word next
  else if word.field 24 6 = 0b111001 then onward next (loadScaled word)
  else if word.field 24 6 = 0b111000 ∧ word.bit 21 = true ∧ word.field 10 2 = 0b10 then
    onward next (loadIndexed word)
  else if word.field 24 6 = 0b111000 ∧ word.bit 21 = false then
    onward next (loadShortOffset word)
  else if word.field 24 6 = 0b011000 then onward next (loadLiteral word)
  else if word.field 26 4 = 0b1010 then onward next (loadPair word)
  else reject word

/-- Does what a word says, and gives the address to go on at. -/
def carryOut [Console κ] [FileStore φ] [Clock τ] (word : Word) : Act κ φ τ Int := do
  let next := (← get).nextPc
  match system? word with
  | some instruction => system instruction next
  | none => family word next

/-- Executes one word. The program counter follows at the end, if the machine still runs. -/
def execute [Console κ] [FileStore φ] [Clock τ] (word : Word) : Act κ φ τ Unit := do
  let target ← carryOut word
  if (← get).isRunning then modify (·.jump target)

end Executor

namespace Machine

variable {κ φ τ : Type}

/-- Ends the run with a fault at the address of an instruction. -/
def raiseAt (pc : Int) (machine : Machine κ φ τ) (cause : FaultCause) : Machine κ φ τ :=
  let fault : Fault := ⟨cause, pc⟩
  { machine with status := .faulted fault }.note .warning ("execution fault: " ++ fault.text)

/-- Executes a word, and counts it if the machine still runs. -/
def performInOrder [Console κ] [FileStore φ] [Clock τ] (word : Word) (machine : Machine κ φ τ) :
    Bool × Machine κ φ τ :=
  match Executor.outcome machine (Executor.execute word) with
  | (.error cause, later) => (false, later.raiseAt machine.registers.pc cause)
  | (.ok _, later) =>
    if later.isRunning then (true, { later with executed := later.executed + 1 })
    else (false, later)

/-- A step that a hook may prevent, with its acts in order. -/
def stepInOrder [Console κ] [FileStore φ] [Clock τ] {η : Type} (hook : Hook η) (state : η)
    (machine : Machine κ φ τ) : Bool × Machine κ φ τ × η :=
  match machine.fetch with
  | .error stopped => (false, stopped, state)
  | .ok word =>
    let (goes, state) := hook machine.registers.pc word state
    if goes then
      let (runs, next) := machine.performInOrder word
      (runs, next, state)
    else (false, machine, state)

end Machine

end MiniA64
