import MiniA64.Assembly.Padding
import MiniA64.Assembly.Selection

/-!
# Data

The bytes that numbers and strings in a program stand for. A number fills a fixed count of
bytes, least significant first, and may be written signed or unsigned.

The body of a string literal is kept as written. A backslash stands for the character that the
letter after it names, and any other character after it stands for itself.
-/

namespace MiniA64

namespace StringLiteral

def escaped : Char → Char
  | 'n' => '\n'
  | 'r' => '\r'
  | 't' => '\t'
  | '0' => '\x00'
  | c => c

/-- The text that a body denotes. A backslash at its very end stands for itself. -/
def unescape : List Char → List Char
  | [] => []
  | '\\' :: c :: rest => escaped c :: unescape rest
  | c :: rest => c :: unescape rest

/-- The bytes of the text that a body denotes. -/
def bytes (raw : String) : List UInt8 :=
  (String.ofList (unescape raw.toList)).toUTF8.toList

end StringLiteral

namespace Data

/-- The bytes of one value of a data directive. -/
def ofValue (symbols : SymbolTable) (width : Nat) (argument : Operand) :
    Except Diagnostic (List UInt8) := do
  let value ← match argument.kind with
    | .immediate value => .ok value
    | .symbol name => symbols.resolve name argument.location
    | _ => Selection.refuse argument.location (.expected .numberOrSymbol)
  if value < -2 ^ (8 * width - 1) ∨ 2 ^ (8 * width) ≤ value then
    Selection.outOfRange argument.location value (.data width)
  else return toLittleEndian width (value % 256 ^ width).toNat

/-- The bytes of a string, with a zero byte after it unless it is to stand alone. -/
def ofString (directive : Directive) (argument : Operand) : Except Diagnostic (List UInt8) :=
  match argument.kind with
  | .string raw =>
    .ok (StringLiteral.bytes raw ++ if directive = .ascii then [] else [0])
  | _ => Padding.refuse argument.location .notString

end Data

end MiniA64
