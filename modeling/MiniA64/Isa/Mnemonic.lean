import MiniA64.Isa.Instruction
import MiniA64.Text.Characters

/-!
# Mnemonics

The operations that source text can name. A conditional branch is spelled with its condition,
either `b.eq` or `beq`; every other mnemonic has one spelling, and an exact spelling wins over
the condition forms, so that `bl` and `bic` are never read as a branch.
-/

namespace MiniA64

/-- The logical operations that have a mnemonic. -/
inductive LogicalName
  | and
  | ands
  | orr
  | eor
  | bic
  | orn
  deriving DecidableEq, Repr, Inhabited

namespace LogicalName

def name : LogicalName → String
  | and => "and"
  | ands => "ands"
  | orr => "orr"
  | eor => "eor"
  | bic => "bic"
  | orn => "orn"

/-- The operation and whether its second operand is inverted. -/
def operation : LogicalName → LogicalOp × Bool
  | and => (.and, false)
  | ands => (.ands, false)
  | orr => (.orr, false)
  | eor => (.eor, false)
  | bic => (.and, true)
  | orn => (.orr, true)

def all : List LogicalName := [and, ands, orr, eor, bic, orn]

def ofOperation? (op : LogicalOp) (invert : Bool) : Option LogicalName :=
  all.find? fun name ↦ name.operation = (op, invert)

end LogicalName

/-- The single loads and stores. The register width completes the transfer. -/
inductive TransferName
  | ldr
  | ldrb
  | ldrh
  | ldrsb
  | ldrsh
  | ldrsw
  | str
  | strb
  | strh
  deriving DecidableEq, Repr, Inhabited

namespace TransferName

def all : List TransferName := [ldr, ldrb, ldrh, ldrsb, ldrsh, ldrsw, str, strb, strh]

def name : TransferName → String
  | ldr => "ldr"
  | ldrb => "ldrb"
  | ldrh => "ldrh"
  | ldrsb => "ldrsb"
  | ldrsh => "ldrsh"
  | ldrsw => "ldrsw"
  | str => "str"
  | strb => "strb"
  | strh => "strh"

/-- The spelling of the form with an unscaled offset. -/
def unscaledName : TransferName → String
  | ldr => "ldur"
  | ldrb => "ldurb"
  | ldrh => "ldurh"
  | ldrsb => "ldursb"
  | ldrsh => "ldursh"
  | ldrsw => "ldursw"
  | str => "stur"
  | strb => "sturb"
  | strh => "sturh"

def transfer? : TransferName → Width → Option Transfer
  | ldr, .w64 => some (.load 3)
  | ldr, .w32 => some (.load 2)
  | ldrb, _ => some (.load 0)
  | ldrh, _ => some (.load 1)
  | ldrsb, .w64 => some (.loadSigned64 0)
  | ldrsb, .w32 => some (.loadSigned32 0)
  | ldrsh, .w64 => some (.loadSigned64 1)
  | ldrsh, .w32 => some (.loadSigned32 1)
  | ldrsw, .w64 => some (.loadSigned64 2)
  | ldrsw, .w32 => none
  | str, .w64 => some (.store 3)
  | str, .w32 => some (.store 2)
  | strb, _ => some (.store 0)
  | strh, _ => some (.store 1)

/-- The name of a transfer and the width with which its register is written. -/
def ofTransfer : Transfer → TransferName × Width
  | .store 0 => (strb, .w32)
  | .store 1 => (strh, .w32)
  | .store 2 => (str, .w32)
  | .store 3 => (str, .w64)
  | .load 0 => (ldrb, .w32)
  | .load 1 => (ldrh, .w32)
  | .load 2 => (ldr, .w32)
  | .load 3 => (ldr, .w64)
  | .loadSigned64 0 => (ldrsb, .w64)
  | .loadSigned64 1 => (ldrsh, .w64)
  | .loadSigned64 2 => (ldrsw, .w64)
  | .loadSigned32 0 => (ldrsb, .w32)
  | .loadSigned32 1 => (ldrsh, .w32)

theorem transfer?_ofTransfer (transfer : Transfer) :
    (ofTransfer transfer).1.transfer? (ofTransfer transfer).2 = some transfer := by
  revert transfer
  rintro (size | size | size | size) <;> revert size <;> decide

end TransferName

inductive Mnemonic
  | addSub (op : AddSubOp) (setFlags : Bool)
  | compare (op : AddSubOp)
  | test
  | logical (name : LogicalName)
  | negate
  | invert
  | shift (kind : ShiftKind)
  | divide (signed : Bool)
  | multiply
  | move
  | moveWide (op : MoveWideOp)
  | transfer (name : TransferName)
  | unscaledTransfer (name : TransferName)
  | pair (load : Bool)
  | branch (link : Bool)
  | branchIf (condition : Condition)
  | compareBranch (nonzero : Bool)
  | branchRegister (op : BranchRegisterOp)
  | hint (kind : Hint)
  | barrier (kind : Barrier)
  | exception (op : ExceptionOp)
  | service (kind : Service)
  deriving DecidableEq, Repr

namespace Mnemonic

/-- The canonical spelling. All conditional branches share one, without the condition. -/
def name : Mnemonic → String
  | addSub op setFlags => op.name setFlags
  | compare op => op.compareName
  | test => "tst"
  | logical name => name.name
  | negate => "neg"
  | invert => "mvn"
  | shift kind => kind.name
  | divide signed => if signed then "sdiv" else "udiv"
  | multiply => "mul"
  | move => "mov"
  | moveWide op => op.name
  | transfer name => name.name
  | unscaledTransfer name => name.unscaledName
  | pair load => if load then "ldp" else "stp"
  | branch link => if link then "bl" else "b"
  | branchIf _ => "b.cond"
  | compareBranch nonzero => if nonzero then "cbnz" else "cbz"
  | branchRegister op => op.name
  | hint kind => kind.name
  | barrier kind => kind.name
  | exception op => op.name
  | service kind => kind.name

/-- Every mnemonic with a spelling of its own, which excludes the conditional branches. -/
def unconditional : List Mnemonic :=
  [addSub .add false, addSub .add true, addSub .sub false, addSub .sub true, compare .add,
    compare .sub, test, negate, invert, divide false, divide true, multiply, move,
    moveWide .movz, moveWide .movn, moveWide .movk, pair false, pair true, branch false,
    branch true, compareBranch false, compareBranch true, branchRegister .br,
    branchRegister .blr, branchRegister .ret, exception .svc, exception .hvc, exception .smc] ++
    LogicalName.all.map logical ++ ShiftKind.all.map shift ++
    TransferName.all.map transfer ++ TransferName.all.map unscaledTransfer ++
    Hint.all.map hint ++ Barrier.all.map barrier ++ Service.all.map service

def spellings : List (String × Mnemonic) :=
  unconditional.map fun mnemonic ↦ (mnemonic.name, mnemonic)

/-- The condition of a spelling that is `b` with a condition, with or without a dot. -/
def branchCondition? (lowered : List Char) : Option Condition :=
  match lowered with
  | 'b' :: '.' :: suffix => Condition.ofSuffix? (String.ofList suffix)
  | 'b' :: suffix => Condition.ofSuffix? (String.ofList suffix)
  | _ => none

def ofSpelling? (spelling : String) : Option Mnemonic :=
  let lowered := Text.lower spelling
  match spellings.lookup lowered with
  | some mnemonic => some mnemonic
  | none => (branchCondition? lowered.toList).map branchIf

/-- The condition that a conditional branch tests. -/
def condition? : Mnemonic → Option Condition
  | branchIf condition => some condition
  | _ => none

end Mnemonic

end MiniA64
