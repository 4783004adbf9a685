import MiniA64.Assembly.Token
import MiniA64.Assembly.Trial.Basic
import MiniA64.Text.IntegerLiteral

/-!
# Reading by trial

The digits of each number are converted where they are scanned, and the digits of each name that
looks like a numbered register where the name is looked up. Neither conversion has a result for
every text, and a decimal number has a limit to its digits, zeros in front of it included.
-/

namespace MiniA64

namespace Trial

/-- The number that digits of a radix stand for. -/
def integer (radix : Nat) (digits : List Char) : Trial Nat :=
  if radix = 10 ∧ Text.digitLimit < digits.length then lapse (.limit (.digits digits.length))
  else orLapse (.literal (String.ofList digits)) (Text.digits? radix digits)

/-- A number from its first digit on, and how many characters it takes. -/
def numeral (negative : Bool) (text : List Char) : Trial (TokenKind × Nat) :=
  let (radix, mark) := Lexeme.radixOf text
  let digits := (text.drop mark).takeWhile (Lexeme.isDigitOf radix)
  if digits.isEmpty then
    return (.error (if radix = 16 then .expectedHexDigits else .expectedBinaryDigits), mark)
  else do
    let magnitude ← integer radix digits
    let value : Int := magnitude
    return (.number (if negative then -value else value), mark + digits.length)

/-- The token at the start of a text without leading blanks, and how many characters it takes. -/
def scan (text : List Char) : Trial (TokenKind × Nat) :=
  match text with
  | [] => return Lexeme.scan []
  | c :: rest =>
    if c = '\n' || Lexeme.isNameStart c then return Lexeme.scan text
    else if Text.isDigit c then numeral false text
    else if c = '-' && (rest.head?.any Text.isDigit) then do
      let (kind, length) ← numeral true rest
      return (kind, length + 1)
    else return Lexeme.scan text

/-- The register of a name, if it has one. -/
def registerNamed (name : String) : Trial (Option RegisterName) :=
  match RegisterName.parse name with
  | .ok register => return register
  | .error (.notDecimal text) => lapse (.literal text)
  | .error (.tooLong count) => lapse (.limit (.digits count))

/-- Shows the line of the source that a diagnostic is about. -/
def locate (source : String) (diagnostic : Diagnostic) : Trial Diagnostic :=
  match diagnostic.sourceLine, diagnostic.location with
  | none, some location => do
    let lines := splitLines source.toList
    if 0 < location.line ∧ location.line ≤ lines.length then do
      let line ← item lines (location.line - 1).toNat
      return diagnostic.withSourceLine (dropReturns line)
    else return diagnostic
  | _, _ => return diagnostic

end Trial

end MiniA64
