import MiniA64.Assembly.Directive
import MiniA64.Assembly.Location
import MiniA64.Assembly.Operand
import MiniA64.Isa.Mnemonic

/-!
# Statements

A program is a list of labels, instructions and directives. The program itself, its statements
and their operands are nodes of one tree. Nodes are numbered in the order in which they are
completed, except that the program is node 0; the number of nodes is what a capacity limits.
-/

namespace MiniA64

structure Operand where
  slot : Nat
  location : Location
  kind : OperandKind
  deriving DecidableEq, Repr

inductive StatementKind
  | label (name : String)
  | instruction (mnemonic : Mnemonic) (spelling : String) (operands : List Operand)
  | directive (name : Directive) (arguments : List Operand)
  deriving DecidableEq, Repr

structure Statement where
  slot : Nat
  location : Location
  kind : StatementKind
  deriving DecidableEq, Repr

namespace StatementKind

/-- The operands or arguments below a statement. -/
def operands : StatementKind → List Operand
  | label _ => []
  | instruction _ _ operands => operands
  | directive _ arguments => arguments

end StatementKind

structure Program where
  source : String
  file : String
  root : Nat
  statements : List Statement
  nodes : Nat
  deriving Repr

end MiniA64
