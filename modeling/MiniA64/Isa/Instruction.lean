import MiniA64.Isa.Condition
import MiniA64.Isa.Register
import MiniA64.Isa.Service
import MiniA64.Isa.Word

/-!
# Instructions

The instructions the machine executes, each with its operand fields. Field types exclude what
has no meaning: a bit number is below the operand width, arithmetic takes no rotated operand,
and a load or store form pairs an access size only with the transfers that exist at that size.
-/

namespace MiniA64

inductive Hint
  | nop
  | wfe
  | wfi
  | sev
  | sevl
  deriving DecidableEq, Repr, Inhabited

namespace Hint

def all : List Hint := [nop, wfe, wfi, sev, sevl]

def name : Hint → String
  | nop => "nop"
  | wfe => "wfe"
  | wfi => "wfi"
  | sev => "sev"
  | sevl => "sevl"

def code : Hint → BitVec 7
  | nop => 0
  | wfe => 2
  | wfi => 3
  | sev => 4
  | sevl => 5

def ofCode? (code : BitVec 7) : Option Hint := all.find? fun hint ↦ hint.code = code

end Hint

inductive Barrier
  | dsb
  | dmb
  | isb
  deriving DecidableEq, Repr, Inhabited

namespace Barrier

def all : List Barrier := [dsb, dmb, isb]

def name : Barrier → String
  | dsb => "dsb"
  | dmb => "dmb"
  | isb => "isb"

def code : Barrier → BitVec 3
  | dsb => 4
  | dmb => 5
  | isb => 6

/-- The named barrier options. -/
def options : List (String × BitVec 4) :=
  [("oshld", 1), ("oshst", 2), ("osh", 3), ("nshld", 5), ("nshst", 6), ("nsh", 7),
    ("ishld", 9), ("ishst", 10), ("ish", 11), ("ld", 13), ("st", 14), ("sy", 15)]

def optionName? (option : BitVec 4) : Option String :=
  (options.find? fun entry ↦ entry.2 = option).map (·.1)

/-- The option that applies to the whole system, the default. -/
def fullSystem : BitVec 4 := 15

end Barrier

inductive BranchRegisterOp
  | br
  | blr
  | ret
  deriving DecidableEq, Repr, Inhabited

namespace BranchRegisterOp

def name : BranchRegisterOp → String
  | br => "br"
  | blr => "blr"
  | ret => "ret"

def code : BranchRegisterOp → BitVec 2
  | br => 0
  | blr => 1
  | ret => 2

end BranchRegisterOp

inductive ExceptionOp
  | svc
  | hvc
  | smc
  deriving DecidableEq, Repr, Inhabited

namespace ExceptionOp

def name : ExceptionOp → String
  | svc => "svc"
  | hvc => "hvc"
  | smc => "smc"

def code : ExceptionOp → BitVec 2
  | svc => 1
  | hvc => 2
  | smc => 3

end ExceptionOp

inductive AddSubOp
  | add
  | sub
  deriving DecidableEq, Repr, Inhabited

namespace AddSubOp

def bit : AddSubOp → BitVec 1
  | add => 0
  | sub => 1

def ofBit (subtracts : Bool) : AddSubOp := if subtracts then sub else add

def flip : AddSubOp → AddSubOp
  | add => sub
  | sub => add

def name (op : AddSubOp) (setFlags : Bool) : String :=
  match op with
  | add => if setFlags then "adds" else "add"
  | sub => if setFlags then "subs" else "sub"

/-- The name of the form that only sets flags. -/
def compareName : AddSubOp → String
  | add => "cmn"
  | sub => "cmp"

end AddSubOp

/-- The shifts of a shifted operand. -/
inductive ShiftKind
  | lsl
  | lsr
  | asr
  | ror
  deriving DecidableEq, Repr, Inhabited

namespace ShiftKind

def all : List ShiftKind := [lsl, lsr, asr, ror]

def name : ShiftKind → String
  | lsl => "lsl"
  | lsr => "lsr"
  | asr => "asr"
  | ror => "ror"

def ofName? (name : String) : Option ShiftKind := all.find? fun kind ↦ kind.name = name

def code : ShiftKind → BitVec 2
  | lsl => 0
  | lsr => 1
  | asr => 2
  | ror => 3

def ofCode (code : BitVec 2) : ShiftKind := all.getD code.toNat ror

end ShiftKind

/-- The shifts that arithmetic takes. -/
inductive LinearShift
  | lsl
  | lsr
  | asr
  deriving DecidableEq, Repr, Inhabited

namespace LinearShift

def kind : LinearShift → ShiftKind
  | lsl => .lsl
  | lsr => .lsr
  | asr => .asr

def ofKind? : ShiftKind → Option LinearShift
  | .lsl => some lsl
  | .lsr => some lsr
  | .asr => some asr
  | .ror => none

end LinearShift

inductive LogicalOp
  | and
  | orr
  | eor
  | ands
  deriving DecidableEq, Repr, Inhabited

namespace LogicalOp

def all : List LogicalOp := [and, orr, eor, ands]

def code : LogicalOp → BitVec 2
  | and => 0
  | orr => 1
  | eor => 2
  | ands => 3

def ofCode (code : BitVec 2) : LogicalOp := all.getD code.toNat ands

end LogicalOp

inductive MoveWideOp
  | movn
  | movz
  | movk
  deriving DecidableEq, Repr, Inhabited

namespace MoveWideOp

def name : MoveWideOp → String
  | movn => "movn"
  | movz => "movz"
  | movk => "movk"

def code : MoveWideOp → BitVec 2
  | movn => 0
  | movz => 2
  | movk => 3

def ofCode? (code : BitVec 2) : Option MoveWideOp :=
  [movn, movz, movk].find? fun op ↦ op.code = code

end MoveWideOp

inductive TwoSourceOp
  | udiv
  | sdiv
  | shift (kind : ShiftKind)
  deriving DecidableEq, Repr, Inhabited

namespace TwoSourceOp

def name : TwoSourceOp → String
  | udiv => "udiv"
  | sdiv => "sdiv"
  | shift kind => kind.name

def code : TwoSourceOp → BitVec 6
  | udiv => 2
  | sdiv => 3
  | shift .lsl => 8
  | shift .lsr => 9
  | shift .asr => 10
  | shift .ror => 11

def all : List TwoSourceOp :=
  [udiv, sdiv, shift .lsl, shift .lsr, shift .asr, shift .ror]

def ofCode? (code : BitVec 6) : Option TwoSourceOp := all.find? fun op ↦ op.code = code

end TwoSourceOp

/--
One transfer between a register and memory. A size is the binary logarithm of the number of
bytes: all four sizes can be stored and loaded with zeros above, those below eight bytes also
with the sign extended to 64 bits, and those below four bytes with the sign extended to 32.
-/
inductive Transfer
  | store (size : Fin 4)
  | load (size : Fin 4)
  | loadSigned64 (size : Fin 3)
  | loadSigned32 (size : Fin 2)
  deriving DecidableEq, Repr, Inhabited

namespace Transfer

def size : Transfer → Nat
  | store size => size.val
  | load size => size.val
  | loadSigned64 size => size.val
  | loadSigned32 size => size.val

def byteCount (transfer : Transfer) : Nat := 2 ^ transfer.size

/-- The two-bit opcode beside the size. -/
def code : Transfer → BitVec 2
  | store _ => 0
  | load _ => 1
  | loadSigned64 _ => 2
  | loadSigned32 _ => 3

def sizeCode (transfer : Transfer) : BitVec 2 := BitVec.ofNat 2 transfer.size

def ofCodes? (size code : BitVec 2) : Option Transfer :=
  if code = 0 then some (store size.toFin)
  else if code = 1 then some (load size.toFin)
  else if code = 2 then
    if h : size.toNat < 3 then some (loadSigned64 ⟨size.toNat, h⟩) else none
  else if h : size.toNat < 2 then some (loadSigned32 ⟨size.toNat, h⟩) else none

end Transfer

/-- How an index register is widened before it is added to the base. -/
inductive IndexExtend
  | uxtw
  | uxtx
  | sxtw
  | sxtx
  deriving DecidableEq, Repr, Inhabited

namespace IndexExtend

def code : IndexExtend → BitVec 3
  | uxtw => 2
  | uxtx => 3
  | sxtw => 6
  | sxtx => 7

def ofCode? (code : BitVec 3) : Option IndexExtend :=
  [uxtw, uxtx, sxtw, sxtx].find? fun extend ↦ extend.code = code

end IndexExtend

/-- Addressing of a single transfer, relative to a base register. -/
inductive Addressing
  | scaled (offset : BitVec 12)
  | unscaled (offset : BitVec 9)
  | postIndex (offset : BitVec 9)
  | preIndex (offset : BitVec 9)
  | index (rm : Reg) (extend : IndexExtend) (scaled : Bool)
  deriving DecidableEq, Repr, Inhabited

/-- Loads relative to the program counter. -/
inductive LiteralLoad
  | word
  | doubleWord
  | signedWord
  deriving DecidableEq, Repr, Inhabited

namespace LiteralLoad

def code : LiteralLoad → BitVec 2
  | word => 0
  | doubleWord => 1
  | signedWord => 2

def ofCode? (code : BitVec 2) : Option LiteralLoad :=
  [word, doubleWord, signedWord].find? fun load ↦ load.code = code

def transfer : LiteralLoad → Transfer
  | word => .load 2
  | doubleWord => .load 3
  | signedWord => .loadSigned64 2

end LiteralLoad

/-- Addressing of a pair of transfers. The first form is a plain offset under another code. -/
inductive PairMode
  | plainOffset
  | postIndex
  | offset
  | preIndex
  deriving DecidableEq, Repr, Inhabited

namespace PairMode

def code : PairMode → BitVec 2
  | plainOffset => 0
  | postIndex => 1
  | offset => 2
  | preIndex => 3

def ofCode (code : BitVec 2) : PairMode :=
  [plainOffset, postIndex, offset, preIndex].getD code.toNat preIndex

end PairMode

inductive Instruction
  | hint (code : BitVec 7)
  | barrier (kind : Barrier) (option : BitVec 4)
  | branchRegister (op : BranchRegisterOp) (rn : Reg)
  | exception (op : ExceptionOp) (number : BitVec 16)
  | addSubImmediate (width : Width) (op : AddSubOp) (setFlags shifted : Bool)
      (immediate : BitVec 12) (rn rd : Reg)
  | addSubRegister (width : Width) (op : AddSubOp) (setFlags : Bool) (shift : LinearShift)
      (amount : BitVec 6) (rm rn rd : Reg)
  | logical (width : Width) (op : LogicalOp) (invert : Bool) (shift : ShiftKind)
      (amount : BitVec 6) (rm rn rd : Reg)
  | moveWide (width : Width) (op : MoveWideOp) (window : Fin (width.bits / 16))
      (immediate : BitVec 16) (rd : Reg)
  | bitfield (width : Width) (signed : Bool) (rotate last : Fin width.bits) (rn rd : Reg)
  | extract (width : Width) (low : Fin width.bits) (rm rn rd : Reg)
  | twoSource (width : Width) (op : TwoSourceOp) (rm rn rd : Reg)
  | multiplyAdd (width : Width) (subtract : Bool) (rm ra rn rd : Reg)
  | branch (link : Bool) (offset : BitVec 26)
  | branchIf (condition : Condition) (offset : BitVec 19)
  | compareBranch (width : Width) (nonzero : Bool) (offset : BitVec 19) (rt : Reg)
  | loadStore (transfer : Transfer) (address : Addressing) (rn rt : Reg)
  | loadLiteral (load : LiteralLoad) (offset : BitVec 19) (rt : Reg)
  | pair (width : Width) (load : Bool) (mode : PairMode) (offset : BitVec 7) (rt2 rn rt : Reg)
  deriving DecidableEq, Repr

end MiniA64
