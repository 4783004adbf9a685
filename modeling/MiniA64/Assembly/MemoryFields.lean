import MiniA64.Assembly.Grammar

/-!
# Memory operands field by field

A memory operand as the node that a parser fills in while it reads: an offset of zero stands for
none, an index register takes the place of the offset, and two marks say when the base is written.
Whether something stands inside the brackets is told from what the fields hold.
-/

namespace MiniA64

structure MemoryFields where
  base : Reg
  index? : Option Reg := none
  offset : Int := 0
  preIndex : Bool := false
  postIndex : Bool := false
  deriving DecidableEq, Repr

namespace MemoryFields

open MiniA64.Parser

/-- Fills in what is added to the base inside the brackets. -/
def displaced (opening : Token) (node : MemoryFields) : Parser MemoryFields := do
  if ← accept .comma then
    if ← accept .hash then
      return { node with offset := ← signedNumber .offsetAfterHash }
    else
      match (← current).kind with
      | .identifier _ => return { node with index? := some (← Grammar.indexRegister opening) }
      | _ => return { node with offset := ← signedNumber .indexOrOffset }
  else return node

/-- Marks a pre-index if an exclamation mark follows the brackets. -/
def preIndexed (opening : Token) (node : MemoryFields) : Parser MemoryFields := do
  if ← accept .bang then
    if node.index?.isSome then refuse opening .preIndexOfIndex
    else return { node with preIndex := true }
  else return node

/-- Marks a post-index if a comma and a hash follow, and fills in its offset. -/
def postIndexed (opening : Token) (node : MemoryFields) : Parser MemoryFields := do
  if (← current).kind = .comma ∧ (← following) = .hash then
    if node.preIndex then refuse opening .preAndPostIndex
    else if node.index?.isSome ∨ node.offset ≠ 0 then refuse opening .postIndexOfOffset
    else
      advance
      advance
      return { node with offset := ← signedNumber .postIndexOffset, postIndex := true }
  else return node

/-- The fields of a memory operand after its opening bracket. -/
def read (opening : Token) : Parser MemoryFields := do
  let base ← Grammar.baseRegister opening
  let inside ← displaced opening { base }
  expect .rightBracket .closingBracket
  let marked ← preIndexed opening inside
  postIndexed opening marked

/-- A memory operand with the number of its node. -/
def operand : Parser (Nat × MemoryFields) := do
  let opening ← current
  advance
  let node ← read opening
  return (← allocate opening.location, node)

end MemoryFields

/-- The fields that a memory operand is kept in. -/
def MemoryOperand.fields : MemoryOperand → MemoryFields
  | ⟨base, .offset bytes⟩ => { base, offset := bytes }
  | ⟨base, .index register⟩ => { base, index? := some register }
  | ⟨base, .preIndex bytes⟩ => { base, offset := bytes, preIndex := true }
  | ⟨base, .postIndex bytes⟩ => { base, offset := bytes, postIndex := true }

end MiniA64
