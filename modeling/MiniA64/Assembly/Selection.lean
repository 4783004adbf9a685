import MiniA64.Assembly.Statement
import MiniA64.Assembly.SymbolTable
import MiniA64.Isa.MoveWide

/-!
# The instruction of a statement

A mnemonic with operands names one instruction. Many mnemonics are short for a form of another
operation with the zero register or with two equal operands; an immediate selects the form whose
field holds it exactly, and is refused if there is none.
-/

namespace MiniA64

/-- Where an instruction stands: the symbols it can refer to, its address and its place. -/
structure Site where
  symbols : SymbolTable
  address : Nat
  location : Location
  spelling : String

abbrev Selected (α : Type) := Except Diagnostic α

structure RegisterOperand where
  name : RegisterName
  location : Location

namespace RegisterOperand

def number (register : RegisterOperand) : Reg := register.name.number

def width (register : RegisterOperand) : Width := register.name.width

end RegisterOperand

structure ShiftOperand where
  kind : ShiftKind
  amount : Int
  location : Location

namespace Selection

def refuse {α : Type} (location : Location) (error : OperandError) : Selected α :=
  .error ((AssemblyError.operand error).locatedAt location)

def outOfRange {α : Type} (location : Location) (value : Int) (slot : ImmediateSlot) :
    Selected α :=
  .error ((AssemblyError.immediateRange value slot).locatedAt location)

def wrongCount {α : Type} (site : Site) (allowed : List Nat) (operands : List Operand) :
    Selected α :=
  refuse site.location (.count site.spelling allowed operands.length)

def registerOf? (operand : Operand) : Option RegisterOperand :=
  match operand.kind with
  | .register name => some ⟨name, operand.location⟩
  | _ => none

def register (operand : Operand) : Selected RegisterOperand :=
  match registerOf? operand with
  | some register => .ok register
  | none => refuse operand.location (.expected .register)

/-- Accepts a register where number 31 is the zero register. -/
def asData (register : RegisterOperand) : Selected RegisterOperand :=
  if register.name.isStackPointer then refuse register.location .stackPointer else .ok register

/-- Accepts a register where number 31 is the stack pointer. -/
def asStack (register : RegisterOperand) : Selected RegisterOperand :=
  if register.name.isZero then refuse register.location .zeroRegister else .ok register

def dataRegister (operand : Operand) : Selected RegisterOperand := do
  asData (← register operand)

/-- The common width of registers. -/
def sameWidth (site : Site) (first : RegisterOperand) (rest : List RegisterOperand) :
    Selected Width :=
  if rest.all fun register ↦ register.width = first.width then .ok first.width
  else refuse site.location .mixedWidths

def value (site : Site) (operand : Operand) (what : Expected) : Selected Int :=
  match operand.kind with
  | .immediate value => .ok value
  | .symbol name => site.symbols.resolve name operand.location
  | _ => refuse operand.location (.expected what)

def isShift (operand : Operand) : Bool :=
  match operand.kind with
  | .shift _ _ => true
  | _ => false

def shift? : Option Operand → Selected (Option ShiftOperand)
  | none => .ok none
  | some operand =>
    match operand.kind with
    | .shift kind amount => .ok (some ⟨kind, amount, operand.location⟩)
    | _ => refuse operand.location (.expected .shift)

/-- The bit number of a shift amount, which is below the width. -/
def shiftAmount (width : Width) (location : Location) (amount : Int) :
    Selected (Fin width.bits) :=
  if h : 0 ≤ amount ∧ amount < width.bits then .ok ⟨amount.toNat, by omega⟩
  else outOfRange location amount .shiftAmount

/-- The shift of a register operand, none being a shift by zero. -/
def anyShift (width : Width) : Option ShiftOperand → Selected (ShiftKind × BitVec 6)
  | none => .ok (.lsl, 0)
  | some shift => do
    let amount ← shiftAmount width shift.location shift.amount
    return (shift.kind, BitVec.ofNat 6 amount.val)

def linearShift (width : Width) : Option ShiftOperand → Selected (LinearShift × BitVec 6)
  | none => .ok (.lsl, 0)
  | some shift =>
    match LinearShift.ofKind? shift.kind with
    | none => refuse shift.location (.shiftKind shift.kind)
    | some kind => do
      let amount ← shiftAmount width shift.location shift.amount
      return (kind, BitVec.ofNat 6 amount.val)

/-- Operands of an operation with a destination, two sources and a shift of the second. -/
structure Arrangement where
  destination : Operand
  /-- The destination is the first source too if there is no other. -/
  first : Option Operand
  second : Operand
  shift : Option Operand

def arrange? : List Operand → Option Arrangement
  | [a, b] => some ⟨a, none, b, none⟩
  | [a, b, c] => some (if isShift c then ⟨a, none, b, some c⟩ else ⟨a, some b, c, none⟩)
  | [a, b, c, d] => some ⟨a, some b, c, some d⟩
  | _ => none

/-- The first source, read by the rule of its slot. -/
def firstSource (arrangement : Arrangement) (destination : RegisterOperand)
    (read : Operand → Selected RegisterOperand) : Selected RegisterOperand :=
  match arrangement.first with
  | none => .ok destination
  | some operand => read operand

def addSubRegister (op : AddSubOp) (setFlags : Bool) (width : Width) (rd rn rm : Reg)
    (shift : Option ShiftOperand) : Selected Instruction := do
  let (kind, amount) ← linearShift width shift
  return .addSubRegister width op setFlags kind amount rm rn rd

def logicalRegister (name : LogicalName) (width : Width) (rd rn rm : Reg)
    (shift : Option ShiftOperand) : Selected Instruction := do
  let (kind, amount) ← anyShift width shift
  let (op, invert) := name.operation
  return .logical width op invert kind amount rm rn rd

/-- The field and the scale that hold a magnitude, by an explicit shift or of themselves. -/
def arithmeticField (location : Location) (magnitude : Int) :
    Option ShiftOperand → Selected (BitVec 12 × Bool)
  | some shift =>
    if shift.kind ≠ .lsl ∨ (shift.amount ≠ 0 ∧ shift.amount ≠ 12) then
      refuse shift.location .immediateShift
    else if 4095 < magnitude then outOfRange location magnitude .shiftedArithmetic
    else .ok (BitVec.ofInt 12 magnitude, shift.amount = 12)
  | none =>
    if magnitude ≤ 4095 then .ok (BitVec.ofInt 12 magnitude, false)
    else if magnitude % 4096 = 0 ∧ magnitude / 4096 ≤ 4095 then
      .ok (BitVec.ofInt 12 (magnitude / 4096), true)
    else outOfRange location magnitude .arithmetic

/-- Adding a negative constant subtracts its magnitude, and the other way round. -/
def addSubImmediate (op : AddSubOp) (setFlags : Bool) (width : Width) (rd rn : Reg)
    (value : Int) (shift : Option ShiftOperand) (location : Location) :
    Selected Instruction := do
  let (op, magnitude) := if value < 0 then (op.flip, -value) else (op, value)
  let (immediate, shifted) ← arithmeticField location magnitude shift
  return .addSubImmediate width op setFlags shifted immediate rn rd

/-- The register form takes no stack pointer. -/
def asRegisterForm (register : RegisterOperand) : Selected Unit :=
  if register.name.isStackPointer then refuse register.location .stackPointerInRegisterForm
  else .ok ()

def addSub (site : Site) (op : AddSubOp) (setFlags : Bool) (operands : List Operand) :
    Selected Instruction :=
  match arrange? operands with
  | none => wrongCount site [2, 3, 4] operands
  | some arrangement => do
    let rd ← register arrangement.destination
    let rn ← firstSource arrangement rd register
    let shift ← shift? arrangement.shift
    match registerOf? arrangement.second with
    | some rm =>
      asRegisterForm rd
      asRegisterForm rn
      asRegisterForm rm
      let width ← sameWidth site rd [rn, rm]
      addSubRegister op setFlags width rd.number rn.number rm.number shift
    | none =>
      let rn ← asStack rn
      let rd ← if setFlags then asData rd else asStack rd
      let width ← sameWidth site rd [rn]
      let value ← value site arrangement.second .registerOrImmediate
      addSubImmediate op setFlags width rd.number rn.number value shift site.location

/-- The operands of a comparison: two, and a shift of the second. -/
def comparands? : List Operand → Option (Operand × Operand × Option Operand)
  | [a, b] => some (a, b, none)
  | [a, b, c] => some (a, b, some c)
  | _ => none

def compare (site : Site) (op : AddSubOp) (operands : List Operand) : Selected Instruction :=
  match comparands? operands with
  | none => wrongCount site [2, 3] operands
  | some (left, right, modifier) => do
    let rn ← register left
    let shift ← shift? modifier
    match registerOf? right with
    | some rm =>
      let rn ← asData rn
      let rm ← asData rm
      let width ← sameWidth site rn [rm]
      addSubRegister op true width Reg.special rn.number rm.number shift
    | none =>
      let rn ← asStack rn
      let value ← value site right .registerOrImmediate
      addSubImmediate op true rn.width Reg.special rn.number value shift site.location

def test (site : Site) (operands : List Operand) : Selected Instruction :=
  match comparands? operands with
  | none => wrongCount site [2, 3] operands
  | some (left, right, modifier) => do
    let rn ← register left
    let shift ← shift? modifier
    let rn ← asData rn
    let rm ← dataRegister right
    let width ← sameWidth site rn [rm]
    logicalRegister .ands width Reg.special rn.number rm.number shift

def logical (site : Site) (name : LogicalName) (operands : List Operand) :
    Selected Instruction :=
  match arrange? operands with
  | none => wrongCount site [2, 3, 4] operands
  | some arrangement => do
    let rd ← dataRegister arrangement.destination
    let rn ← firstSource arrangement rd dataRegister
    match registerOf? arrangement.second with
    | none => refuse arrangement.second.location (.registersOnly name.name)
    | some rm =>
      let rm ← asData rm
      let width ← sameWidth site rd [rn, rm]
      let shift ← shift? arrangement.shift
      logicalRegister name width rd.number rn.number rm.number shift

/-- An operation on one register: its destination, source and shift, at a common width. -/
def unary (site : Site) (operands : List Operand)
    (select : Width → Reg → Reg → Option ShiftOperand → Selected Instruction) :
    Selected Instruction :=
  match comparands? operands with
  | none => wrongCount site [2, 3] operands
  | some (destination, source, modifier) => do
    let rd ← dataRegister destination
    let rm ← dataRegister source
    let width ← sameWidth site rd [rm]
    let shift ← shift? modifier
    select width rd.number rm.number shift

/-- Subtracts from the zero register. -/
def negate (site : Site) (operands : List Operand) : Selected Instruction :=
  unary site operands fun width rd rm ↦ addSubRegister .sub false width rd Reg.special rm

/-- Combines the complement with the zero register. -/
def invert (site : Site) (operands : List Operand) : Selected Instruction :=
  unary site operands fun width rd rm ↦ logicalRegister .orn width rd Reg.special rm

/-- Two or three operands; with two, the first is also the first source. -/
def binary? : List Operand → Option (Operand × Option Operand × Operand)
  | [a, b] => some (a, none, b)
  | [a, b, c] => some (a, some b, c)
  | _ => none

/-- A shift by a constant moves a bit field, and a rotation extracts from equal halves. -/
def shiftImmediate (kind : ShiftKind) (width : Width) (amount : Fin width.bits) (rn rd : Reg) :
    Instruction :=
  have positive := width.bits_pos
  match kind with
  | .ror => .extract width amount rn rn rd
  | .lsl =>
    .bitfield width false ⟨(width.bits - amount.val) % width.bits, Nat.mod_lt _ positive⟩
      ⟨width.bits - 1 - amount.val, by omega⟩ rn rd
  | .lsr => .bitfield width false amount ⟨width.bits - 1, by omega⟩ rn rd
  | .asr => .bitfield width true amount ⟨width.bits - 1, by omega⟩ rn rd

def shift (site : Site) (kind : ShiftKind) (operands : List Operand) : Selected Instruction :=
  match binary? operands with
  | none => wrongCount site [2, 3] operands
  | some (destination, first, second) => do
    let rd ← dataRegister destination
    let rn ← match first with
      | none => .ok rd
      | some operand => dataRegister operand
    match registerOf? second with
    | some rm =>
      let rm ← asData rm
      let width ← sameWidth site rd [rn, rm]
      return .twoSource width (.shift kind) rm.number rn.number rd.number
    | none =>
      let width ← sameWidth site rd [rn]
      let value ← value site second .registerOrShiftAmount
      let amount ← shiftAmount width site.location value
      return shiftImmediate kind width amount rn.number rd.number

/-- An operation on two registers and no shift. -/
def binary (site : Site) (operands : List Operand)
    (select : Width → Reg → Reg → Reg → Instruction) : Selected Instruction :=
  match binary? operands with
  | none => wrongCount site [2, 3] operands
  | some (destination, first, second) => do
    let rd ← dataRegister destination
    let rn ← match first with
      | none => .ok rd
      | some operand => dataRegister operand
    let rm ← dataRegister second
    let width ← sameWidth site rd [rn, rm]
    return select width rm.number rn.number rd.number

def divide (site : Site) (signed : Bool) (operands : List Operand) : Selected Instruction :=
  binary site operands fun width ↦ .twoSource width (if signed then .sdiv else .udiv)

def multiply (site : Site) (operands : List Operand) : Selected Instruction :=
  binary site operands fun width rm ↦ .multiplyAdd width false rm Reg.special

/-- Loads a constant modulo the width by a single move, if one move can. -/
def moveImmediate (width : Width) (rd : Reg) (value : Int) : Except AssemblyError Instruction :=
  if value < -2 ^ (width.bits - 1) ∨ 2 ^ width.bits ≤ value then
    .error (.immediateRange value (.register width))
  else
    match WindowMove.ofValue? (BitVec.ofInt width.bits value) with
    | none => .error (.immediateRange value .singleMove)
    | some move => .ok (.moveWide width move.op move.window move.immediate rd)

/-- Copying combines with the zero register; where the stack pointer is involved it adds zero. -/
def moveRegister (site : Site) (rd rm : RegisterOperand) : Selected Instruction := do
  let width ← sameWidth site rd [rm]
  if rd.name.isStackPointer || rm.name.isStackPointer then
    let rd ← asStack rd
    let rm ← asStack rm
    return .addSubImmediate width .add false false 0 rm.number rd.number
  else return .logical width .orr false .lsl 0 rm.number Reg.special rd.number

def move (site : Site) (operands : List Operand) : Selected Instruction :=
  match operands with
  | [destination, source] => do
    let rd ← register destination
    match registerOf? source with
    | some rm => moveRegister site rd rm
    | none =>
      if rd.name.isStackPointer then refuse rd.location .moveToStackPointer
      else
        let value ← value site source .registerOrImmediate
        (moveImmediate rd.width rd.number value).mapError (·.locatedAt site.location)
  | _ => wrongCount site [2] operands

/-- The window that a shift of a wide move selects. -/
def window (width : Width) : Option ShiftOperand → Selected (Fin (width.bits / 16))
  | none => .ok ⟨0, by cases width <;> decide⟩
  | some shift =>
    if h : shift.kind = .lsl ∧ shift.amount % 16 = 0 ∧ 0 ≤ shift.amount ∧
        shift.amount < width.bits then
      .ok ⟨(shift.amount / 16).toNat, by cases width <;> simp only [Width.bits] at h ⊢ <;> omega⟩
    else refuse shift.location .moveWideShift

def moveWide (site : Site) (op : MoveWideOp) (operands : List Operand) : Selected Instruction :=
  match comparands? operands with
  | none => wrongCount site [2, 3] operands
  | some (destination, source, modifier) => do
    let rd ← dataRegister destination
    let value ← value site source .wideImmediate
    if value < 0 ∨ 0xFFFF < value then outOfRange site.location value .moveWide
    else
      let shift ← shift? modifier
      let window ← window rd.width shift
      return .moveWide rd.width op window (BitVec.ofInt 16 value) rd.number

/--
The displacement to a target in words, as a signed field. A symbol is an address; a number is a
displacement in bytes already.
-/
def branchOffset (site : Site) (bits : Nat) (target : Operand) : Selected (BitVec bits) := do
  let (name, offset) ← match target.kind with
    | .symbol name => do
      let address ← site.symbols.resolve name target.location
      pure (name, address - site.address)
    | .immediate offset => pure ("#" ++ toString offset, offset)
    | _ => refuse target.location (.expected .branchTarget)
  let fail (problem : BranchProblem) : Selected (BitVec bits) :=
    .error ((AssemblyError.branchRange name offset problem).locatedAt site.location)
  if offset % 4 ≠ 0 then fail .misaligned
  else if offset < -2 ^ (bits + 1) ∨ 2 ^ (bits + 1) ≤ offset then fail .outOfRange
  else return BitVec.ofInt bits (offset / 4)

def branch (site : Site) (link : Bool) (operands : List Operand) : Selected Instruction :=
  match operands with
  | [target] => return .branch link (← branchOffset site 26 target)
  | _ => wrongCount site [1] operands

def branchIf (site : Site) (condition : Condition) (operands : List Operand) :
    Selected Instruction :=
  match operands with
  | [target] => return .branchIf condition (← branchOffset site 19 target)
  | _ => wrongCount site [1] operands

def compareBranch (site : Site) (nonzero : Bool) (operands : List Operand) :
    Selected Instruction :=
  match operands with
  | [tested, target] => do
    let rt ← dataRegister tested
    return .compareBranch rt.width nonzero (← branchOffset site 19 target) rt.number
  | _ => wrongCount site [2] operands

/-- Only a return may leave its register out, which is the link register then. -/
def branchRegister (site : Site) (op : BranchRegisterOp) (operands : List Operand) :
    Selected Instruction :=
  match op, operands with
  | .ret, [] => return .branchRegister .ret Reg.link
  | op, [target] => return .branchRegister op (← dataRegister target).number
  | .ret, _ => wrongCount site [0, 1] operands
  | _, _ => wrongCount site [1] operands

/-- A signed nine-bit offset in bytes. -/
def byteOffset (location : Location) (offset : Int) (slot : ImmediateSlot) :
    Selected (BitVec 9) :=
  if offset < -256 ∨ 255 < offset then outOfRange location offset slot
  else .ok (BitVec.ofInt 9 offset)

/-- An unsigned offset in units of the access size. -/
def scaledOffset (name : TransferName) (transfer : Transfer) (location : Location)
    (offset : Int) : Selected (BitVec 12) :=
  let scale := transfer.byteCount
  if offset % scale ≠ 0 then
    outOfRange location offset (.scaledMultiple scale name.unscaledName)
  else if offset < 0 ∨ 4095 < offset / scale then
    outOfRange location offset (.scaledRange scale name.unscaledName)
  else .ok (BitVec.ofInt 12 (offset / scale))

def addressing (name : TransferName) (transfer : Transfer) (location : Location) :
    MemoryForm → Selected Addressing
  | .index rm => return .index rm .uxtx false
  | .preIndex offset => return .preIndex (← byteOffset location offset .writeback)
  | .postIndex offset => return .postIndex (← byteOffset location offset .writeback)
  | .offset offset => return .scaled (← scaledOffset name transfer location offset)

/-- The load that reads its data beside the code. -/
def literalLoad? : TransferName → Width → Option LiteralLoad
  | .ldr, .w32 => some .word
  | .ldr, .w64 => some .doubleWord
  | .ldrsw, _ => some .signedWord
  | _, _ => none

def transfer (site : Site) (name : TransferName) (operands : List Operand) :
    Selected Instruction :=
  match operands with
  | [data, target] => do
    let rt ← dataRegister data
    match name.transfer? rt.width with
    | none => refuse rt.location (.needsWideRegister name.name)
    | some transfer =>
      match target.kind with
      | .memory ⟨base, form⟩ =>
        let address ← addressing name transfer target.location form
        return .loadStore transfer address base rt.number
      | _ =>
        match literalLoad? name rt.width with
        | none => refuse target.location (.needsMemory name.name)
        | some load => return .loadLiteral load (← branchOffset site 19 target) rt.number
  | _ => wrongCount site [2] operands

def unscaledTransfer (site : Site) (name : TransferName) (operands : List Operand) :
    Selected Instruction :=
  match operands with
  | [data, target] => do
    let rt ← dataRegister data
    match name.transfer? rt.width with
    | none => refuse rt.location (.needsWideRegister name.unscaledName)
    | some transfer =>
      match target.kind with
      | .memory ⟨base, .offset offset⟩ =>
        let offset ← byteOffset target.location offset .unscaled
        return .loadStore transfer (.unscaled offset) base rt.number
      | _ => refuse target.location (.expected .memoryOffset)
  | _ => wrongCount site [2] operands

/-- The mode and the offset of a pair; there is none with an index register. -/
def pairForm? : MemoryForm → Option (PairMode × Int)
  | .offset offset => some (.offset, offset)
  | .preIndex offset => some (.preIndex, offset)
  | .postIndex offset => some (.postIndex, offset)
  | .index _ => none

def pairTarget? (target : Operand) : Option (Reg × PairMode × Int) :=
  match target.kind with
  | .memory ⟨base, form⟩ => (pairForm? form).map fun (mode, offset) ↦ (base, mode, offset)
  | _ => none

/-- A signed offset in units of one element of the pair. -/
def pairOffset (width : Width) (location : Location) (offset : Int) : Selected (BitVec 7) :=
  let scale := width.bits / 8
  if offset % scale ≠ 0 then outOfRange location offset (.pairMultiple scale)
  else if offset / scale < -64 ∨ 63 < offset / scale then outOfRange location offset .pairRange
  else .ok (BitVec.ofInt 7 (offset / scale))

def pair (site : Site) (load : Bool) (operands : List Operand) : Selected Instruction :=
  match operands with
  | [first, second, target] => do
    let rt ← dataRegister first
    let rt2 ← dataRegister second
    let width ← sameWidth site rt [rt2]
    match pairTarget? target with
    | none => refuse target.location (.expected .memoryOffset)
    | some (base, mode, offset) =>
      let offset ← pairOffset width target.location offset
      return .pair width load mode offset rt2.number base rt.number
  | _ => wrongCount site [3] operands

def hint (site : Site) (kind : Hint) (operands : List Operand) : Selected Instruction :=
  match operands with
  | [] => .ok (.hint kind.code)
  | _ => wrongCount site [0] operands

def barrierOption (operand : Operand) : Selected (BitVec 4) :=
  let unknown := refuse operand.location (.expected .barrierOption)
  match operand.kind with
  | .symbol name =>
    match Barrier.options.lookup (Text.lower name) with
    | some option => .ok option
    | none => unknown
  | .immediate value => if 0 ≤ value ∧ value ≤ 15 then .ok (BitVec.ofInt 4 value) else unknown
  | _ => unknown

def barrier (site : Site) (kind : Barrier) (operands : List Operand) : Selected Instruction :=
  match operands with
  | [] => .ok (.barrier kind Barrier.fullSystem)
  | [option] => return .barrier kind (← barrierOption option)
  | _ => wrongCount site [0, 1] operands

def exception (site : Site) (op : ExceptionOp) (operands : List Operand) :
    Selected Instruction :=
  match operands with
  | [number] => do
    let value ← value site number .immediate
    if value < 0 ∨ 0xFFFF < value then outOfRange site.location value .callNumber
    else return .exception op (BitVec.ofInt 16 value)
  | _ => wrongCount site [1] operands

/-- A service is a call of the supervisor with the number of the service. -/
def service (site : Site) (kind : Service) (operands : List Operand) : Selected Instruction :=
  match operands with
  | [] => .ok (.exception .svc kind.id)
  | _ => wrongCount site [0] operands

end Selection

/-- The instruction that a mnemonic with operands names at a site. -/
def Mnemonic.select (mnemonic : Mnemonic) (site : Site) (operands : List Operand) :
    Selected Instruction :=
  match mnemonic with
  | addSub op setFlags => Selection.addSub site op setFlags operands
  | compare op => Selection.compare site op operands
  | test => Selection.test site operands
  | logical name => Selection.logical site name operands
  | negate => Selection.negate site operands
  | invert => Selection.invert site operands
  | shift kind => Selection.shift site kind operands
  | divide signed => Selection.divide site signed operands
  | multiply => Selection.multiply site operands
  | move => Selection.move site operands
  | moveWide op => Selection.moveWide site op operands
  | transfer name => Selection.transfer site name operands
  | unscaledTransfer name => Selection.unscaledTransfer site name operands
  | pair load => Selection.pair site load operands
  | branch link => Selection.branch site link operands
  | branchIf condition => Selection.branchIf site condition operands
  | compareBranch nonzero => Selection.compareBranch site nonzero operands
  | branchRegister op => Selection.branchRegister site op operands
  | hint kind => Selection.hint site kind operands
  | barrier kind => Selection.barrier site kind operands
  | exception op => Selection.exception site op operands
  | service kind => Selection.service site kind operands

end MiniA64
