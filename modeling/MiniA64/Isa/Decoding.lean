import MiniA64.Isa.Instruction

/-!
# Decoding

A word is matched against the encoding families in a fixed order, exact system words first.
A family is a pattern on some of the bits, so a word that the architecture gives to another
instruction can still match a later, looser pattern; the order decides. Words that match no
family are unknown, and so are words whose fields their family does not allow. Loads and stores
whose size and transfer code do not go together are told apart from unknown words.
-/

namespace MiniA64

inductive DecodeError
  | unknown
  | invalidTransfer
  deriving DecidableEq, Repr, Inhabited

namespace Decoding

def unknownIfNone {α : Type} : Option α → Except DecodeError α
  | some value => .ok value
  | none => .error .unknown

def transfer (word : Word) : Except DecodeError Transfer :=
  match Transfer.ofCodes? (word.field 30 2) (word.field 22 2) with
  | some transfer => .ok transfer
  | none => .error .invalidTransfer

/-- A bit number that must lie below the operand width. -/
def bitNumber (width : Width) (bits : BitVec 6) : Option (Fin width.bits) :=
  if h : bits.toNat < width.bits then some ⟨bits.toNat, h⟩ else none

def width (word : Word) : Width := Width.ofBit (word.bit 31)

def rd (word : Word) : Reg := word.field 0 5

def rn (word : Word) : Reg := word.field 5 5

def rm (word : Word) : Reg := word.field 16 5

def barrier? (word : Word) : Option Instruction :=
  if word.field 12 20 = 0xd5033 ∧ word.field 0 5 = 31 then
    (Barrier.all.find? fun kind ↦ kind.code = word.field 5 3).map fun kind ↦
      .barrier kind (word.field 8 4)
  else none

def branchRegister? (word : Word) : Option Instruction :=
  if word.field 23 9 = 0b110101100 ∧ word.field 10 11 = 0b11111000000 ∧ word.field 0 5 = 0 then
    ([BranchRegisterOp.br, .blr, .ret].find? fun op ↦ op.code = word.field 21 2).map fun op ↦
      .branchRegister op (rn word)
  else none

def exception? (word : Word) : Option Instruction :=
  if word.field 21 11 = 0b11010100000 ∧ word.field 2 3 = 0 then
    ([ExceptionOp.svc, .hvc, .smc].find? fun op ↦ op.code = word.field 0 2).map fun op ↦
      .exception op (word.field 5 16)
  else none

/-- The system words, matched before every family. -/
def system? (word : Word) : Option Instruction :=
  if word.field 12 20 = 0xd5032 ∧ word.field 0 5 = 31 then some (.hint (word.field 5 7))
  else (barrier? word).or ((branchRegister? word).or (exception? word))

def addSubImmediate (word : Word) : Instruction :=
  .addSubImmediate (width word) (.ofBit (word.bit 30)) (word.bit 29) (word.bit 22)
    (word.field 10 12) (rn word) (rd word)

def addSubRegister (word : Word) : Option Instruction :=
  (LinearShift.ofKind? (.ofCode (word.field 22 2))).map fun shift ↦
    .addSubRegister (width word) (.ofBit (word.bit 30)) (word.bit 29) shift (word.field 10 6)
      (rm word) (rn word) (rd word)

def logical (word : Word) : Instruction :=
  .logical (width word) (.ofCode (word.field 29 2)) (word.bit 21) (.ofCode (word.field 22 2))
    (word.field 10 6) (rm word) (rn word) (rd word)

def moveWide (word : Word) : Option Instruction :=
  match MoveWideOp.ofCode? (word.field 29 2) with
  | none => none
  | some op =>
    let window := (word.field 21 2).toNat
    if h : window < (width word).bits / 16 then
      some (.moveWide (width word) op ⟨window, h⟩ (word.field 5 16) (rd word))
    else none

def bitfield (word : Word) : Option Instruction :=
  if word.bit 29 || word.bit 22 != word.bit 31 then none
  else
    match bitNumber (width word) (word.field 16 6), bitNumber (width word) (word.field 10 6) with
    | some rotate, some last =>
      some (.bitfield (width word) (!word.bit 30) rotate last (rn word) (rd word))
    | _, _ => none

def extract (word : Word) : Option Instruction :=
  if word.bit 22 != word.bit 31 then none
  else
    (bitNumber (width word) (word.field 10 6)).map fun low ↦
      .extract (width word) low (rm word) (rn word) (rd word)

def twoSource (word : Word) : Option Instruction :=
  (TwoSourceOp.ofCode? (word.field 10 6)).map fun op ↦
    .twoSource (width word) op (rm word) (rn word) (rd word)

def multiplyAdd (word : Word) : Instruction :=
  .multiplyAdd (width word) (word.bit 15) (rm word) (word.field 10 5) (rn word) (rd word)

def loadStore (word : Word) (address : Addressing) : Except DecodeError Instruction := do
  let transfer ← transfer word
  .ok (.loadStore transfer address (rn word) (rd word))

/-- The nine-bit offset forms: the mode in bits 11 and 10 selects the addressing. -/
def shortOffset (word : Word) : Except DecodeError Instruction :=
  let offset := word.field 12 9
  let mode : BitVec 2 := word.field 10 2
  if mode = 0 then loadStore word (.unscaled offset)
  else if mode = 1 then loadStore word (.postIndex offset)
  else if mode = 3 then loadStore word (.preIndex offset)
  else .error .unknown

def indexed (word : Word) : Except DecodeError Instruction :=
  match IndexExtend.ofCode? (word.field 13 3) with
  | some extend => loadStore word (.index (rm word) extend (word.bit 12))
  | none => .error .unknown

def loadLiteral (word : Word) : Option Instruction :=
  (LiteralLoad.ofCode? (word.field 30 2)).map fun load ↦
    .loadLiteral load (word.field 5 19) (rd word)

def pair (word : Word) : Option Instruction :=
  if word.bit 30 then none
  else
    some (.pair (width word) (word.bit 22) (.ofCode (word.field 23 2)) (word.field 15 7)
      (word.field 10 5) (rn word) (rd word))

/-- The encoding families in the order in which they are tried. -/
def families (word : Word) : Except DecodeError Instruction :=
  if word.field 23 6 = 0b100010 then .ok (addSubImmediate word)
  else if word.field 24 5 = 0b01011 ∧ word.bit 21 = false then unknownIfNone (addSubRegister word)
  else if word.field 24 5 = 0b01010 then .ok (logical word)
  else if word.field 23 6 = 0b100101 then unknownIfNone (moveWide word)
  else if word.field 23 6 = 0b100110 then unknownIfNone (bitfield word)
  else if word.field 23 8 = 0b00100111 ∧ word.bit 21 = false then unknownIfNone (extract word)
  else if word.field 21 10 = 0b0011010110 then unknownIfNone (twoSource word)
  else if word.field 21 10 = 0b0011011000 then .ok (multiplyAdd word)
  else if word.field 26 5 = 0b00101 then .ok (.branch (word.bit 31) (word.field 0 26))
  else if word.field 24 8 = 0x54 ∧ word.bit 4 = false then
    .ok (.branchIf (.ofCode (word.field 0 4)) (word.field 5 19))
  else if word.field 25 6 = 0b011010 then
    .ok (.compareBranch (width word) (word.bit 24) (word.field 5 19) (rd word))
  else if word.field 24 6 = 0b111001 then loadStore word (.scaled (word.field 10 12))
  else if word.field 24 6 = 0b111000 ∧ word.bit 21 = true ∧ word.field 10 2 = 0b10 then
    indexed word
  else if word.field 24 6 = 0b111000 ∧ word.bit 21 = false then shortOffset word
  else if word.field 24 6 = 0b011000 then unknownIfNone (loadLiteral word)
  else if word.field 26 4 = 0b1010 then unknownIfNone (pair word)
  else .error .unknown

end Decoding

def decode (word : Word) : Except DecodeError Instruction :=
  match Decoding.system? word with
  | some instruction => .ok instruction
  | none => Decoding.families word

end MiniA64
