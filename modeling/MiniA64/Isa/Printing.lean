import MiniA64.Isa.Decoding
import MiniA64.Isa.Mnemonic
import MiniA64.Isa.MoveWide

/-!
# Instruction text

Instructions in the language of the assembler. Instructions that the assembler never emits have
no text; their words are printed as data. A spelling is preferred when it says more than the
encoding: comparisons drop the unused destination, a subtraction from zero is a negation, a
bitfield move that shifts is a shift, and a move of a constant shows the constant.
-/

namespace MiniA64

namespace Printing

/-- Decimal for one digit, hexadecimal beyond. -/
def immediate (value : Int) : String :=
  if -10 < value ∧ value < 10 then "#" ++ toString value else "#" ++ Text.hex value

def operands (items : List String) : String := ", ".intercalate items

def line (name : String) (items : List String) : String :=
  if items.isEmpty then name else name ++ " " ++ operands items

/-- A shift operand, left out when it shifts nothing to the left. -/
def shift (kind : ShiftKind) (amount : Nat) : List String :=
  if kind = .lsl ∧ amount = 0 then [] else [kind.name ++ " #" ++ toString amount]

def bracketed (items : List String) : String := "[" ++ operands items ++ "]"

def memory (base : Reg) (offset : Int) : String :=
  bracketed (base.nameSp .w64 :: if offset = 0 then [] else [immediate offset])

/-- A word as data. -/
def data (word : Word) : String := ".word 0x" ++ Text.padLeft 8 (Text.lowerDigits word.toNat)

def addSubImmediate (width : Width) (op : AddSubOp) (setFlags shifted : Bool)
    (value : BitVec 12) (rn rd : Reg) : String :=
  let immediates := immediate value.toNat :: if shifted then ["lsl #12"] else []
  if op = .add && !setFlags && !shifted && value = 0 && (rn = Reg.special || rd = Reg.special) then
    line "mov" [rd.nameSp width, rn.nameSp width]
  else if setFlags && rd = Reg.special then line op.compareName (rn.nameSp width :: immediates)
  else
    let target := if setFlags then rd.name width else rd.nameSp width
    line (op.name setFlags) (target :: rn.nameSp width :: immediates)

def addSubRegister (width : Width) (op : AddSubOp) (setFlags : Bool) (shiftKind : LinearShift)
    (amount : BitVec 6) (rm rn rd : Reg) : Option String :=
  if width = .w32 && amount.toNat > 31 then none
  else
    let source := rm.name width :: shift shiftKind.kind amount.toNat
    if setFlags && rd = Reg.special then some (line op.compareName (rn.name width :: source))
    else if op = .sub && !setFlags && rn = Reg.special then
      some (line "neg" (rd.name width :: source))
    else some (line (op.name setFlags) (rd.name width :: rn.name width :: source))

def logical (width : Width) (op : LogicalOp) (invert : Bool) (shiftKind : ShiftKind)
    (amount : BitVec 6) (rm rn rd : Reg) : Option String :=
  if width = .w32 && amount.toNat > 31 then none
  else
    let source := rm.name width :: shift shiftKind amount.toNat
    match LogicalName.ofOperation? op invert with
    | none => none
    | some name =>
      if name = .orr && rn = Reg.special && shiftKind = .lsl && amount = 0 then
        some (line "mov" (rd.name width :: source))
      else if name = .orn && rn = Reg.special then some (line "mvn" (rd.name width :: source))
      else if name = .ands && rd = Reg.special then some (line "tst" (rn.name width :: source))
      else some (line name.name (rd.name width :: rn.name width :: source))

/-- A move is shown with its constant when the assembler would choose it for that constant. -/
def moveWide (width : Width) (op : MoveWideOp) (window : Fin (width.bits / 16))
    (value : BitVec 16) (rd : Reg) : String :=
  let target := rd.name width
  let placed :=
    line op.name (target :: immediate value.toNat ::
      if window.val = 0 then [] else ["lsl #" ++ toString (16 * window.val)])
  let constant (complement : Bool) : String :=
    let move : WindowMove width.bits := ⟨complement, window, value⟩
    if WindowMove.ofValue? move.value = some move then
      line "mov"
        [target, immediate (if complement then move.value.toInt else (move.value.toNat : Int))]
    else placed
  match op with
  | .movk => placed
  | .movz => constant false
  | .movn => constant true

/-- The bitfield moves that are shifts by a constant. -/
def bitfield (width : Width) (signed : Bool) (rotate last : Fin width.bits) (rn rd : Reg) :
    Option String :=
  let shifted (name : String) (amount : Nat) : Option String :=
    some (line name [rd.name width, rn.name width, "#" ++ toString amount])
  if last.val = width.bits - 1 then shifted (if signed then "asr" else "lsr") rotate.val
  else if !signed && last.val + 1 = rotate.val then shifted "lsl" (width.bits - 1 - last.val)
  else none

def loadStore (transfer : Transfer) (address : Addressing) (rn rt : Reg) : Option String :=
  let (name, width) := TransferName.ofTransfer transfer
  let target := rt.name width
  let base := rn.nameSp .w64
  match address with
  | .scaled offset =>
    some (line name.name [target, memory rn (offset.toNat * 2 ^ transfer.size : Nat)])
  | .unscaled offset => some (line name.unscaledName [target, memory rn offset.toInt])
  | .postIndex offset =>
    some (line name.name [target, bracketed [base], immediate offset.toInt])
  | .preIndex offset =>
    some (line name.name [target, bracketed [base, immediate offset.toInt] ++ "!"])
  | .index rm extend scaled =>
    if extend = .uxtx && !scaled then
      some (line name.name [target, bracketed [base, rm.name .w64]])
    else none

def pair (width : Width) (load : Bool) (mode : PairMode) (offset : BitVec 7) (rt2 rn rt : Reg) :
    Option String :=
  let name := if load then "ldp" else "stp"
  let bytes : Int := offset.toInt * (width.bits / 8 : Nat)
  let base := rn.nameSp .w64
  let addressed (items : List String) : Option String :=
    some (line name (rt.name width :: rt2.name width :: items))
  match mode with
  | .plainOffset => none
  | .postIndex => addressed [bracketed [base], immediate bytes]
  | .offset => addressed [memory rn bytes]
  | .preIndex => addressed [bracketed [base, immediate bytes] ++ "!"]

end Printing

namespace Instruction

open Printing in
def text? : Instruction → Option String
  | hint code => (Hint.ofCode? code).map Hint.name
  | barrier .isb option =>
    some (if option = Barrier.fullSystem then "isb" else "isb #" ++ toString option.toNat)
  | barrier kind option =>
    some (line kind.name [(Barrier.optionName? option).getD ("#" ++ toString option.toNat)])
  | branchRegister op rn =>
    some (if op = .ret ∧ rn = Reg.link then "ret" else line op.name [rn.name .w64])
  | exception .svc number =>
    some (match Service.ofId? number with
      | some service => service.name
      | none => line "svc" [immediate number.toNat])
  | exception op number => some (line op.name [immediate number.toNat])
  | addSubImmediate width op setFlags shifted value rn rd =>
    some (Printing.addSubImmediate width op setFlags shifted value rn rd)
  | addSubRegister width op setFlags kind amount rm rn rd =>
    Printing.addSubRegister width op setFlags kind amount rm rn rd
  | logical width op invert kind amount rm rn rd =>
    Printing.logical width op invert kind amount rm rn rd
  | moveWide width op window value rd => some (Printing.moveWide width op window value rd)
  | bitfield width signed rotate last rn rd => Printing.bitfield width signed rotate last rn rd
  | extract width low rm rn rd =>
    if rm = rn then
      some (line "ror" [rd.name width, rn.name width, "#" ++ toString low.val])
    else none
  | twoSource width op rm rn rd =>
    some (line op.name [rd.name width, rn.name width, rm.name width])
  | multiplyAdd width subtract rm ra rn rd =>
    if !subtract && ra = Reg.special then
      some (line "mul" [rd.name width, rn.name width, rm.name width])
    else none
  | branch link offset =>
    some (line (if link then "bl" else "b") [immediate (offset.toInt * 4)])
  | branchIf condition offset =>
    some (line ("b." ++ condition.name) [immediate (offset.toInt * 4)])
  | compareBranch width nonzero offset rt =>
    some (line (if nonzero then "cbnz" else "cbz")
      [rt.name width, immediate (offset.toInt * 4)])
  | loadStore transfer address rn rt => Printing.loadStore transfer address rn rt
  | loadLiteral load offset rt =>
    let target := immediate (offset.toInt * 4)
    some (match load with
      | .word => line "ldr" [rt.name .w32, target]
      | .doubleWord => line "ldr" [rt.name .w64, target]
      | .signedWord => line "ldrsw" [rt.name .w64, target])
  | pair width load mode offset rt2 rn rt => Printing.pair width load mode offset rt2 rn rt

end Instruction

namespace Word

/-- The text of a word: its instruction where that has a text, the word as data otherwise. -/
def text (word : Word) : String :=
  match decode word with
  | .ok instruction => instruction.text?.getD (Printing.data word)
  | .error _ => Printing.data word

/--
The displacement of a word that has the pattern of a branch or of a load relative to the
program counter. The patterns are looser than decoding: a literal load of a size that does not
exist still has a displacement.
-/
def displacement? (word : Word) : Option Int :=
  if word.field 26 5 = 0b00101 then some ((word.field 0 26).toInt * 4)
  else if (word.field 24 8 = 0x54 ∧ word.bit 4 = false) ∨ word.field 25 6 = 0b011010 ∨
      word.field 24 6 = 0b011000 then
    some ((word.field 5 19).toInt * 4)
  else none

/-- Where a branch leads, or a literal load reads, from an instruction at an address. -/
def target? (word : Word) (address : Int) : Option Int := word.displacement?.map (address + ·)

end Word

end MiniA64
