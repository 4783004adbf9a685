import MiniA64.Assembly.Trial.Basic

/-!
# Instructions by trial

A mnemonic is a key: it finds its encoder in one table, and the encoder finds in others what sets
the mnemonic apart from those that share the encoder. An encoder takes as many operands as it has
counted, one after another, and what no operand can make fail is taken over from the selection.
-/

namespace MiniA64

namespace Trial

/-! ## Tables -/

def addSubOperations : List (Mnemonic × AddSubOp × Bool) :=
  [(.addSub .add false, .add, false), (.addSub .add true, .add, true),
    (.addSub .sub false, .sub, false), (.addSub .sub true, .sub, true)]

/-- What adds the negative of a constant that the key adds. -/
def flipped : List (Mnemonic × Mnemonic) :=
  [(.addSub .add false, .addSub .sub false), (.addSub .sub false, .addSub .add false),
    (.addSub .add true, .addSub .sub true), (.addSub .sub true, .addSub .add true)]

def logicalOperations : List (Mnemonic × LogicalName) :=
  LogicalName.all.map fun name ↦ (.logical name, name)

def twoSourceOperations : List (Mnemonic × TwoSourceOp) :=
  [(.divide false, .udiv), (.divide true, .sdiv)] ++
    ShiftKind.all.map fun kind ↦ (.shift kind, .shift kind)

def moveWideOperations : List (Mnemonic × MoveWideOp) :=
  [(.moveWide .movn, .movn), (.moveWide .movz, .movz), (.moveWide .movk, .movk)]

def linearShifts : List (ShiftKind × LinearShift) := [(.lsl, .lsl), (.lsr, .lsr), (.asr, .asr)]

def allShifts : List (ShiftKind × ShiftKind) := ShiftKind.all.map fun kind ↦ (kind, kind)

def branchRegisterOperations : List (Mnemonic × BranchRegisterOp) :=
  [(.branchRegister .br, .br), (.branchRegister .blr, .blr), (.branchRegister .ret, .ret)]

/-- The transfers of a mnemonic by the width of its register. -/
def transferForms : List (Mnemonic × List (Width × Transfer)) :=
  TransferName.all.map fun name ↦
    (.transfer name, [Width.w64, Width.w32].filterMap fun width ↦
      (name.transfer? width).map fun transfer ↦ (width, transfer))

def unscaledByScaled : List (Mnemonic × Mnemonic) :=
  TransferName.all.map fun name ↦ (.transfer name, .unscaledTransfer name)

def scaledByUnscaled : List (Mnemonic × Mnemonic) :=
  TransferName.all.map fun name ↦ (.unscaledTransfer name, .transfer name)

def hints : List (Mnemonic × Hint) := Hint.all.map fun kind ↦ (.hint kind, kind)

def barriers : List (Mnemonic × Barrier) := Barrier.all.map fun kind ↦ (.barrier kind, kind)

def exceptions : List (Mnemonic × ExceptionOp) :=
  [(.exception .svc, .svc), (.exception .hvc, .hvc), (.exception .smc, .smc)]

def services : List (Mnemonic × Service) := Service.all.map fun kind ↦ (.service kind, kind)

/-! ## Arithmetic -/

/-- The shift of a register operand, which has to be of a kind in the table. -/
def shiftFields {κ : Type} (kinds : List (ShiftKind × κ)) (unshifted : κ) (width : Width) :
    Option Node → Trial (κ × BitVec 6)
  | none => return (unshifted, 0)
  | some node => do
    let kind ← node.shiftKind
    if hasKey kinds kind then do
      let chosen ← entry kinds kind
      let amount ← node.amount
      let amount ← settle (Selection.shiftAmount width node.location amount)
      return (chosen, BitVec.ofNat 6 amount.val)
    else refuse node.location (.shiftKind kind)

def addSubRegister (mnemonic : Mnemonic) (width : Width) (rd rn rm : Reg)
    (shift : Option Node) : Trial Instruction := do
  let (op, setFlags) ← entry addSubOperations mnemonic
  let (kind, amount) ← shiftFields linearShifts .lsl width shift
  return .addSubRegister width op setFlags kind amount rm rn rd

def logicalRegister (mnemonic : Mnemonic) (width : Width) (rd rn rm : Reg)
    (shift : Option Node) : Trial Instruction := do
  let name ← entry logicalOperations mnemonic
  let (kind, amount) ← shiftFields allShifts .lsl width shift
  return .logical width name.operation.1 name.operation.2 kind amount rm rn rd

def arithmeticField (location : Location) (magnitude : Int) :
    Option Node → Trial (BitVec 12 × Bool)
  | none => settle (Selection.arithmeticField location magnitude none)
  | some node => do
    let kind ← node.shiftKind
    let amount ← node.amount
    settle (Selection.arithmeticField location magnitude (some ⟨kind, amount, node.location⟩))

def addSubImmediate (mnemonic : Mnemonic) (width : Width) (rd rn : Reg) (value : Int)
    (shift : Option Node) (location : Location) : Trial Instruction := do
  let mnemonic ← if value < 0 then entry flipped mnemonic else pure mnemonic
  let magnitude := if value < 0 then -value else value
  let (immediate, shifted) ← arithmeticField location magnitude shift
  let (op, setFlags) ← entry addSubOperations mnemonic
  return .addSubImmediate width op setFlags shifted immediate rn rd

def addSub (mnemonic : Mnemonic) (site : Site) (operands : List Node) : Trial Instruction := do
  expect site operands [2, 3, 4]
  let rd ← item operands 0
  let rd ← register rd
  let (rn, source, rest) ← sources register rd operands
  let shift ← optionalShift rest 0
  if source.isRegister then do
    registerForm rd
    registerForm rn
    registerForm source
    let width ← sameWidth site [rd, rn, source]
    addSubRegister mnemonic width (← rd.number) (← rn.number) (← source.number) shift
  else do
    let _ ← stackRegister rn
    let _ ← if mnemonic = .addSub .add true ∨ mnemonic = .addSub .sub true then dataRegister rd
      else stackRegister rd
    let width ← sameWidth site [rd, rn]
    let value ← valueOf site.symbols source .registerOrImmediate
    addSubImmediate mnemonic width (← rd.number) (← rn.number) value shift site.location

/-- The comparisons of sums and differences, and the test of bits. -/
def compare (mnemonic : Mnemonic) (site : Site) (operands : List Node) : Trial Instruction := do
  expect site operands [2, 3]
  let rn ← item operands 0
  let rn ← register rn
  let source ← item operands 1
  let shift ← optionalShift operands 2
  if mnemonic = .test then do
    let _ ← dataRegister rn
    let rm ← dataRegister source
    let width ← sameWidth site [rn, rm]
    logicalRegister (.logical .ands) width Reg.special (← rn.number) (← rm.number) shift
  else do
    let flagging : Mnemonic :=
      if mnemonic = .compare .sub then .addSub .sub true else .addSub .add true
    if source.isRegister then do
      let _ ← dataRegister rn
      let rm ← dataRegister source
      let width ← sameWidth site [rn, rm]
      addSubRegister flagging width Reg.special (← rn.number) (← rm.number) shift
    else do
      let _ ← stackRegister rn
      let width ← rn.width
      let value ← valueOf site.symbols source .registerOrImmediate
      addSubImmediate flagging width Reg.special (← rn.number) value shift site.location

def logical (mnemonic : Mnemonic) (site : Site) (operands : List Node) : Trial Instruction := do
  expect site operands [2, 3, 4]
  let rd ← item operands 0
  let rd ← dataRegister rd
  let (rn, source, rest) ← sources dataRegister rd operands
  if source.isRegister then do
    let rm ← dataRegister source
    let width ← sameWidth site [rd, rn, rm]
    let shift ← optionalShift rest 0
    logicalRegister mnemonic width (← rd.number) (← rn.number) (← rm.number) shift
  else refuse source.location (.registersOnly mnemonic.name)

/-- Subtracting from the zero register, and combining the complement with it. -/
def negate (mnemonic : Mnemonic) (site : Site) (operands : List Node) : Trial Instruction := do
  expect site operands [2, 3]
  let rd ← item operands 0
  let rd ← dataRegister rd
  let rm ← item operands 1
  let rm ← dataRegister rm
  let width ← sameWidth site [rd, rm]
  let shift ← optionalShift operands 2
  if mnemonic = .invert then
    logicalRegister (.logical .orn) width (← rd.number) Reg.special (← rm.number) shift
  else addSubRegister (.addSub .sub false) width (← rd.number) Reg.special (← rm.number) shift

def shiftByRegister (mnemonic : Mnemonic) (site : Site) (rd rn source : Node) :
    Trial Instruction := do
  let rm ← dataRegister source
  let width ← sameWidth site [rd, rn, rm]
  let op ← entry twoSourceOperations mnemonic
  return .twoSource width op (← rm.number) (← rn.number) (← rd.number)

def shiftByValue (mnemonic : Mnemonic) (site : Site) (rd rn source : Node) :
    Trial Instruction := do
  let width ← sameWidth site [rd, rn]
  let value ← valueOf site.symbols source .registerOrShiftAmount
  let amount ← settle (Selection.shiftAmount width site.location value)
  let kind : ShiftKind :=
    if mnemonic = .shift .ror then .ror
    else if mnemonic = .shift .lsl then .lsl
    else if mnemonic = .shift .lsr then .lsr
    else .asr
  return Selection.shiftImmediate kind width amount (← rn.number) (← rd.number)

def shiftBy (mnemonic : Mnemonic) (site : Site) (rd rn source : Node) : Trial Instruction :=
  if source.isRegister then shiftByRegister mnemonic site rd rn source
  else shiftByValue mnemonic site rd rn source

def shift (mnemonic : Mnemonic) (site : Site) (operands : List Node) : Trial Instruction := do
  expect site operands [2, 3]
  let rd ← item operands 0
  let rd ← dataRegister rd
  let second ← item operands 1
  let (rn, source) ←
    if operands.length = 2 then pure (rd, second)
    else do
      let rn ← dataRegister second
      let source ← item operands 2
      pure (rn, source)
  shiftBy mnemonic site rd rn source

/-- Two or three registers; of two, the first is also the first source. -/
def threeRegisters (operands : List Node) : Trial (Node × Node × Node) := do
  let registers ← operands.mapM dataRegister
  if registers.length = 2 then do
    let first ← item registers 0
    let second ← item registers 1
    return (first, first, second)
  else unpack registers

def multiply (_ : Mnemonic) (site : Site) (operands : List Node) : Trial Instruction := do
  expect site operands [2, 3]
  let (rd, rn, rm) ← threeRegisters operands
  let width ← sameWidth site [rd, rn, rm]
  return .multiplyAdd width false (← rm.number) Reg.special (← rn.number) (← rd.number)

def divide (mnemonic : Mnemonic) (site : Site) (operands : List Node) : Trial Instruction := do
  expect site operands [2, 3]
  let (rd, rn, rm) ← threeRegisters operands
  let width ← sameWidth site [rd, rn, rm]
  let op ← entry twoSourceOperations mnemonic
  return .twoSource width op (← rm.number) (← rn.number) (← rd.number)

/-! ## Moves -/

/-- Loads a constant by a single move; the operation of the move is a key again. -/
def moveImmediate (width : Width) (rd : Reg) (value : Int) (location : Location) :
    Trial Instruction :=
  if value < -2 ^ (width.bits - 1) ∨ 2 ^ width.bits ≤ value then
    outOfRange location value (.register width)
  else
    match WindowMove.ofValue? (BitVec.ofInt width.bits value) with
    | none => outOfRange location value .singleMove
    | some move => do
      let op ← entry moveWideOperations (.moveWide move.op)
      return .moveWide width op move.window move.immediate rd

/-- The operations of the copies are looked up like those of any other mnemonic. -/
def moveRegister (site : Site) (rd source : Node) : Trial Instruction := do
  let width ← sameWidth site [rd, source]
  if (← rd.isStackPointer) || (← source.isStackPointer) then do
    let _ ← stackRegister rd
    let _ ← stackRegister source
    let (op, setFlags) ← entry addSubOperations (.addSub .add false)
    return .addSubImmediate width op setFlags false 0 (← source.number) (← rd.number)
  else do
    let name ← entry logicalOperations (.logical .orr)
    return .logical width name.operation.1 name.operation.2 .lsl 0 (← source.number) Reg.special
      (← rd.number)

def move (_ : Mnemonic) (site : Site) (operands : List Node) : Trial Instruction := do
  expect site operands [2]
  let rd ← item operands 0
  let rd ← register rd
  let source ← item operands 1
  if source.isRegister then moveRegister site rd source
  else if ← rd.isStackPointer then refuse rd.location .moveToStackPointer
  else do
    let value ← valueOf site.symbols source .registerOrImmediate
    moveImmediate (← rd.width) (← rd.number) value site.location

def window (width : Width) : Option Node → Trial (Fin (width.bits / 16))
  | none => settle (Selection.window width none)
  | some node => do
    let kind ← node.shiftKind
    let amount ← node.amount
    settle (Selection.window width (some ⟨kind, amount, node.location⟩))

def moveWide (mnemonic : Mnemonic) (site : Site) (operands : List Node) :
    Trial Instruction := do
  expect site operands [2, 3]
  let rd ← item operands 0
  let rd ← dataRegister rd
  let source ← item operands 1
  let value ← valueOf site.symbols source .wideImmediate
  if value < 0 ∨ 0xFFFF < value then outOfRange site.location value .moveWide
  else do
    let shift ← optionalShift operands 2
    let width ← rd.width
    let window ← window width shift
    let op ← entry moveWideOperations mnemonic
    return .moveWide width op window (BitVec.ofInt 16 value) (← rd.number)

/-! ## Branches -/

/-- A displacement in words, as a signed field. -/
def displacement (site : Site) (bits : Nat) (name : String) (offset : Int) :
    Trial (BitVec bits) :=
  let fail (problem : BranchProblem) : Trial (BitVec bits) :=
    settle (.error ((AssemblyError.branchRange name offset problem).locatedAt site.location))
  if offset % 4 ≠ 0 then fail .misaligned
  else if offset < -2 ^ (bits + 1) ∨ 2 ^ (bits + 1) ≤ offset then fail .outOfRange
  else return BitVec.ofInt bits (offset / 4)

def branchOffset (site : Site) (bits : Nat) (target : Node) : Trial (BitVec bits) :=
  if target.isSymbol then do
    let name ← target.name
    let address ← settle (site.symbols.resolve name target.location)
    displacement site bits name (address - site.address)
  else if target.isImmediate then do
    let offset ← target.value
    displacement site bits ("#" ++ toString offset) offset
  else refuse target.location (.expected .branchTarget)

def branch (mnemonic : Mnemonic) (site : Site) (operands : List Node) : Trial Instruction := do
  expect site operands [1]
  let target ← item operands 0
  let offset ← branchOffset site 26 target
  return .branch (decide (mnemonic = .branch true)) offset

/-- The condition is missing from every mnemonic that is not a conditional branch. -/
def branchIf (mnemonic : Mnemonic) (site : Site) (operands : List Node) :
    Trial Instruction := do
  expect site operands [1]
  let target ← item operands 0
  let offset ← branchOffset site 19 target
  let condition ← orLapse .missing mnemonic.condition?
  return .branchIf condition offset

def compareBranch (mnemonic : Mnemonic) (site : Site) (operands : List Node) :
    Trial Instruction := do
  expect site operands [2]
  let rt ← item operands 0
  let rt ← dataRegister rt
  let target ← item operands 1
  let offset ← branchOffset site 19 target
  return .compareBranch (← rt.width) (decide (mnemonic = .compareBranch true)) offset
    (← rt.number)

def branchRegister (mnemonic : Mnemonic) (site : Site) (operands : List Node) :
    Trial Instruction := do
  expect site operands (if mnemonic = .branchRegister .ret then [0, 1] else [1])
  let rn ←
    if operands.isEmpty then pure Reg.link
    else do
      let register ← item operands 0
      let register ← dataRegister register
      register.number
  let op ← entry branchRegisterOperations mnemonic
  return .branchRegister op rn

/-! ## Loads and stores -/

/-- The load that reads its data beside the code, if the mnemonic has one. -/
def literalForm (mnemonic : Mnemonic) (rt target : Node) : Trial LiteralLoad :=
  if mnemonic = .transfer .ldr then do
    let width ← rt.width
    return if width = .w64 then .doubleWord else .word
  else if mnemonic = .transfer .ldrsw then return .signedWord
  else refuse target.location (.needsMemory mnemonic.name)

def literalLoad (mnemonic : Mnemonic) (site : Site) (rt target : Node) :
    Trial Instruction := do
  let load ← literalForm mnemonic rt target
  let offset ← branchOffset site 19 target
  return .loadLiteral load offset (← rt.number)

/-- An offset in units of the access size; a message names the mnemonic without a scale. -/
def scaledOffset (mnemonic : Mnemonic) (transfer : Transfer) (location : Location)
    (offset : Int) : Trial (BitVec 12) := do
  let scale := transfer.byteCount
  let unscaled ← entry unscaledByScaled mnemonic
  let rest ← modulo offset scale
  if rest ≠ 0 then outOfRange location offset (.scaledMultiple scale unscaled.name)
  else if offset < 0 ∨ 4095 < offset / scale then
    outOfRange location offset (.scaledRange scale unscaled.name)
  else return BitVec.ofInt 12 (offset / scale)

def addressing (mnemonic : Mnemonic) (transfer : Transfer) (target : Node) :
    Trial Addressing := do
  match ← target.index with
  | some rm => return .index rm .uxtx false
  | none => do
    let offset ← target.offset
    if (← target.isPreIndex) || (← target.isPostIndex) then do
      let field ← settle (Selection.byteOffset target.location offset .writeback)
      return if ← target.isPreIndex then .preIndex field else .postIndex field
    else return .scaled (← scaledOffset mnemonic transfer target.location offset)

def transfer (mnemonic : Mnemonic) (site : Site) (operands : List Node) :
    Trial Instruction := do
  expect site operands [2]
  let rt ← item operands 0
  let rt ← dataRegister rt
  let forms ← entry transferForms mnemonic
  let width ← rt.width
  if hasKey forms width then do
    let transfer ← entry forms width
    let target ← item operands 1
    if target.isMemory then do
      let address ← addressing mnemonic transfer target
      return .loadStore transfer address (← target.base) (← rt.number)
    else literalLoad mnemonic site rt target
  else refuse rt.location (.needsWideRegister mnemonic.name)

/-- A memory operand that is a base and an offset, which the base does not take over. -/
def isPlain (target : Node) : Trial Bool := do
  if target.isMemory then do
    let index ← target.index
    if index.isSome then return false
    else return !(← target.isPreIndex) && !(← target.isPostIndex)
  else return false

def unscaledTransfer (mnemonic : Mnemonic) (site : Site) (operands : List Node) :
    Trial Instruction := do
  expect site operands [2]
  let rt ← item operands 0
  let rt ← dataRegister rt
  let scaled ← entry scaledByUnscaled mnemonic
  let forms ← entry transferForms scaled
  let width ← rt.width
  if hasKey forms width then do
    let transfer ← entry forms width
    let target ← item operands 1
    if ← isPlain target then do
      let offset ← target.offset
      let field ← settle (Selection.byteOffset target.location offset .unscaled)
      return .loadStore transfer (.unscaled field) (← target.base) (← rt.number)
    else refuse target.location (.expected .memoryOffset)
  else refuse rt.location (.needsWideRegister mnemonic.name)

def pairMode (target : Node) : Trial PairMode := do
  if ← target.isPostIndex then return .postIndex
  else if ← target.isPreIndex then return .preIndex
  else return .offset

def pair (mnemonic : Mnemonic) (site : Site) (operands : List Node) : Trial Instruction := do
  expect site operands [3]
  let rt ← item operands 0
  let rt ← dataRegister rt
  let rt2 ← item operands 1
  let rt2 ← dataRegister rt2
  let width ← sameWidth site [rt, rt2]
  let target ← item operands 2
  let based ←
    if target.isMemory then do
      let index ← target.index
      pure index.isNone
    else pure false
  if based then do
    let offset ← target.offset
    let field ← settle (Selection.pairOffset width target.location offset)
    let mode ← pairMode target
    return .pair width (decide (mnemonic = .pair true)) mode field (← rt2.number)
      (← target.base) (← rt.number)
  else refuse target.location (.expected .memoryOffset)

/-! ## The system -/

def hint (mnemonic : Mnemonic) (site : Site) (operands : List Node) : Trial Instruction := do
  expect site operands [0]
  let kind ← entry hints mnemonic
  return .hint kind.code

def barrierOption (node : Node) : Trial (BitVec 4) := do
  let unknown := refuse node.location (.expected .barrierOption)
  if node.isSymbol then do
    let name ← node.name
    if hasKey Barrier.options (Text.lower name) then entry Barrier.options (Text.lower name)
    else unknown
  else if node.isImmediate then do
    let value ← node.value
    if 0 ≤ value ∧ value ≤ 15 then return BitVec.ofInt 4 value else unknown
  else unknown

def barrier (mnemonic : Mnemonic) (site : Site) (operands : List Node) :
    Trial Instruction := do
  expect site operands [0, 1]
  let option ←
    if operands.isEmpty then pure Barrier.fullSystem
    else do
      let node ← item operands 0
      barrierOption node
  let kind ← entry barriers mnemonic
  return .barrier kind option

def exception (mnemonic : Mnemonic) (site : Site) (operands : List Node) :
    Trial Instruction := do
  expect site operands [1]
  let number ← item operands 0
  let value ← valueOf site.symbols number .immediate
  if value < 0 ∨ 0xFFFF < value then outOfRange site.location value .callNumber
  else do
    let op ← entry exceptions mnemonic
    return .exception op (BitVec.ofInt 16 value)

def service (mnemonic : Mnemonic) (site : Site) (operands : List Node) :
    Trial Instruction := do
  expect site operands [0]
  let kind ← entry services mnemonic
  return .exception .svc kind.id

/-! ## Dispatch -/

abbrev Encoder := Mnemonic → Site → List Node → Trial Instruction

/-- The encoders by mnemonic. -/
def encoders : List (Mnemonic × Encoder) :=
  addSubOperations.map (fun entry ↦ (entry.1, addSub)) ++
    [(.compare .add, compare), (.compare .sub, compare), (.test, compare)] ++
    logicalOperations.map (fun entry ↦ (entry.1, logical)) ++
    [(.invert, negate), (.negate, negate)] ++
    ShiftKind.all.map (fun kind ↦ (.shift kind, shift)) ++
    [(.divide false, divide), (.divide true, divide)] ++
    moveWideOperations.map (fun entry ↦ (entry.1, moveWide)) ++
    transferForms.map (fun entry ↦ (entry.1, transfer)) ++
    scaledByUnscaled.map (fun entry ↦ (entry.1, unscaledTransfer)) ++
    [(.pair false, pair), (.pair true, pair), (.branch false, branch), (.branch true, branch),
      (.compareBranch false, compareBranch), (.compareBranch true, compareBranch)] ++
    branchRegisterOperations.map (fun entry ↦ (entry.1, branchRegister)) ++
    hints.map (fun entry ↦ (entry.1, hint)) ++
    barriers.map (fun entry ↦ (entry.1, barrier)) ++
    exceptions.map (fun entry ↦ (entry.1, exception)) ++
    services.map (fun entry ↦ (entry.1, service)) ++
    [(.move, move), (.multiply, multiply)] ++
    Condition.all.map (fun condition ↦ (.branchIf condition, branchIf))

/-- The instruction of a mnemonic, if there is an encoder for it. -/
def select (mnemonic : Mnemonic) (site : Site) (operands : List Node) : Trial Instruction := do
  let encoder ← entry encoders mnemonic
  encoder mnemonic site operands

end Trial

end MiniA64
