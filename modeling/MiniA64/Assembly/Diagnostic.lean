import MiniA64.Assembly.Location
import MiniA64.Isa.Mnemonic

/-!
# Diagnostics of the assembler

Everything that can be wrong with a program, by cause. A diagnostic adds the place, a hint and
the source line; its text shows the line with a caret under the column.
-/

namespace MiniA64

/-- Characters that form no token. -/
inductive LexicalError
  | unexpectedCharacter (c : Char)
  | expectedHexDigits
  | expectedBinaryDigits
  | unterminatedString
  deriving DecidableEq, Repr, Inhabited

def LexicalError.message : LexicalError → String
  | unexpectedCharacter c => "unexpected character '" ++ c.toString ++ "'"
  | expectedHexDigits => "expected hexadecimal digits"
  | expectedBinaryDigits => "expected binary digits"
  | unterminatedString => "unterminated string literal"

/-- Tokens outside the grammar. -/
inductive GrammarError
  | lexical (error : LexicalError)
  | trailing (found : String)
  | statementStart (found : String)
  | unknownMnemonic (spelling : String)
  | directiveName
  | unknownDirective (name : String)
  | directiveArgument
  | nameAfterDot
  | immediateAfterHash
  | operand
  | operandStart (found : String)
  | shiftAmount
  | baseRegister
  | narrowBase
  | zeroBase
  | offsetAfterHash
  | indexOrOffset
  | invalidIndex
  | closingBracket
  | preIndexOfIndex
  | preAndPostIndex
  | postIndexOfOffset
  | postIndexOffset
  | other (message : String)
  deriving DecidableEq, Repr, Inhabited

def GrammarError.message : GrammarError → String
  | lexical error => error.message
  | trailing found => "expected newline after statement, found '" ++ found ++ "'"
  | statementStart found => "unexpected '" ++ found ++ "' at start of statement"
  | unknownMnemonic spelling => "unknown mnemonic '" ++ spelling ++ "'"
  | directiveName => "expected directive name after '.'"
  | unknownDirective name => "unknown directive '." ++ name ++ "'"
  | directiveArgument => "expected number, string or symbol in directive"
  | nameAfterDot => "expected name after '.'"
  | immediateAfterHash => "expected immediate value after '#'"
  | operand => "expected operand"
  | operandStart found => "unexpected '" ++ found ++ "' in operand"
  | shiftAmount => "expected shift amount"
  | baseRegister => "expected base register after '['"
  | narrowBase => "base register must be a 64-bit register"
  | zeroBase => "base register cannot be xzr (use sp)"
  | offsetAfterHash => "expected offset after '#'"
  | indexOrOffset => "expected index register or offset"
  | invalidIndex => "index register must be x0-x30 or xzr (no extend forms)"
  | closingBracket => "expected ']' to close memory operand"
  | preIndexOfIndex => "pre-index requires an immediate offset"
  | preAndPostIndex => "pre-index and post-index cannot be combined"
  | postIndexOfOffset => "post-index requires a bare base register"
  | postIndexOffset => "expected post-index offset"
  | other message => message

/-- What an operand slot or a directive accepts. -/
inductive Expected
  | register
  | registerOrImmediate
  | registerOrShiftAmount
  | wideImmediate
  | immediate
  | value
  | numberOrSymbol
  | constantValue
  | shift
  | branchTarget
  | memoryOffset
  | barrierOption
  deriving DecidableEq, Repr, Inhabited

def Expected.text : Expected → String
  | register => "register"
  | registerOrImmediate => "register or immediate"
  | registerOrShiftAmount => "register or shift amount"
  | wideImmediate => "16-bit immediate"
  | immediate => "immediate"
  | value => "value"
  | numberOrSymbol => "number or symbol"
  | constantValue => "constant value"
  | shift => "shift (e.g. lsl #2)"
  | branchTarget => "branch target"
  | memoryOffset => "[base, #offset] memory operand"
  | barrierOption => "barrier option (sy, ish, ... or #0-15)"

/-- Operands that do not suit their instruction. -/
inductive OperandError
  | count (spelling : String) (allowed : List Nat) (found : Nat)
  | expected (what : Expected)
  | stackPointer
  | stackPointerInRegisterForm
  | zeroRegister
  | mixedWidths
  | shiftKind (kind : ShiftKind)
  | immediateShift
  | moveWideShift
  | registersOnly (mnemonic : String)
  | moveToStackPointer
  | needsWideRegister (mnemonic : String)
  | needsMemory (mnemonic : String)
  | other (message : String)
  deriving DecidableEq, Repr, Inhabited

namespace OperandError

def message : OperandError → String
  | count spelling allowed found =>
    "'" ++ spelling ++ "' expects " ++ " or ".intercalate (allowed.map toString) ++
      " operands, got " ++ toString found
  | expected what => "expected " ++ what.text
  | stackPointer => "sp is not allowed here"
  | stackPointerInRegisterForm => "sp is not allowed in register form"
  | zeroRegister => "zero register is not allowed here (register 31 is sp in this form)"
  | mixedWidths => "register width mismatch (mix of x and w registers)"
  | shiftKind kind => "shift '" ++ kind.name ++ "' not allowed here"
  | immediateShift => "immediate shift must be 'lsl #0' or 'lsl #12'"
  | moveWideShift => "shift must be lsl by a multiple of 16"
  | registersOnly mnemonic => "'" ++ mnemonic ++ "' takes register operands only"
  | moveToStackPointer => "cannot move an immediate into sp"
  | needsWideRegister mnemonic => "'" ++ mnemonic ++ "' requires a 64-bit register"
  | needsMemory mnemonic => "'" ++ mnemonic ++ "' needs a memory operand"
  | other message => message

def hint? : OperandError → Option String
  | zeroRegister => some "use 'mov' to load a constant, or the register form"
  | registersOnly _ => some "load the mask into a register first"
  | _ => none

end OperandError

/-- The slots whose immediate can be out of range. -/
inductive ImmediateSlot
  | arithmetic
  | shiftedArithmetic
  | shiftAmount
  | register (width : Width)
  | singleMove
  | moveWide
  | writeback
  | scaledMultiple (scale : Nat) (unscaledName : String)
  | scaledRange (scale : Nat) (unscaledName : String)
  | unscaled
  | pairMultiple (scale : Nat)
  | pairRange
  | callNumber
  | data (width : Nat)
  | other (message : String)
  deriving DecidableEq, Repr, Inhabited

namespace ImmediateSlot

def message : ImmediateSlot → String
  | arithmetic => "immediate value out of range"
  | shiftedArithmetic => "immediate value out of range"
  | shiftAmount => "shift amount out of range"
  | register width => "immediate does not fit a " ++ toString width.bits ++ "-bit register"
  | singleMove => "value cannot be encoded in a single move instruction"
  | moveWide => "move-wide immediate must be 0-65535"
  | writeback => "writeback offset must be -256..255"
  | scaledMultiple scale _ => "offset must be a multiple of " ++ toString scale
  | scaledRange scale _ => "memory offset out of range (0.." ++ toString (4095 * scale) ++ ")"
  | unscaled => "unscaled offset must be -256..255"
  | pairMultiple scale => "pair offset must be a multiple of " ++ toString scale
  | pairRange => "pair offset out of range"
  | callNumber => "call number must be 0-65535"
  | data width => "value does not fit in " ++ toString width ++ " bytes"
  | other message => message

def hint? (value : Int) : ImmediateSlot → Option String
  | arithmetic => some "use 0-4095, or a multiple of 4096 up to 4095 << 12"
  | singleMove => some "build it with movz followed by movk"
  | scaledMultiple _ name => some ("use '" ++ name ++ "' for an unscaled offset in -256..255")
  | scaledRange _ name =>
    if value < 0 then some ("use '" ++ name ++ "' for a negative offset in -256..255") else none
  | _ => none

end ImmediateSlot

inductive BranchProblem
  | outOfRange
  | misaligned
  | other (message : String)
  deriving DecidableEq, Repr, Inhabited

def BranchProblem.message : BranchProblem → String
  | outOfRange => "out of range"
  | misaligned => "is not word aligned"
  | other message => message

/-- Directive arguments that do not suit the directive. -/
inductive DirectiveError
  | sectionName
  | noGlobals
  | symbolName
  | constantArguments (directive : String)
  | alignmentArguments (directive : String)
  | notConstant (what : String)
  | notPowerOfTwo
  | alignmentRange (directive : String)
  | noValues
  | noStrings
  | notString
  | spaceArguments
  | negativeSpace
  | other (message : String)
  deriving DecidableEq, Repr, Inhabited

def DirectiveError.message : DirectiveError → String
  | sectionName => ".section needs a name"
  | noGlobals => ".global needs at least one symbol"
  | symbolName => "expected symbol name"
  | constantArguments directive => "." ++ directive ++ " expects NAME, value"
  | alignmentArguments directive => "." ++ directive ++ " expects an alignment and optional fill"
  | notConstant what => what ++ " must be a constant"
  | notPowerOfTwo => ".balign needs a power of two"
  | alignmentRange directive => "." ++ directive ++ " power must be 0-12"
  | noValues => "data directive needs at least one value"
  | noStrings => "string directive needs a string"
  | notString => "expected string literal"
  | spaceArguments => ".space expects a size and optional fill"
  | negativeSpace => ".space size cannot be negative"
  | other message => message

inductive AssemblyError
  | grammar (error : GrammarError)
  | undefinedSymbol (name : String) (similar : List String)
  | duplicateSymbol (name : String) (first : Option Location)
  | symbolTableFull (capacity : Int)
  | nodePoolExhausted (capacity : Int)
  | codeBufferOverflow (capacity : Int)
  | immediateRange (value : Int) (slot : ImmediateSlot)
  | branchRange (target : String) (offset : Int) (problem : BranchProblem)
  | operand (error : OperandError)
  | directive (error : DirectiveError)
  deriving DecidableEq, Repr

namespace AssemblyError

def message : AssemblyError → String
  | grammar error => error.message
  | undefinedSymbol name _ => "undefined symbol '" ++ name ++ "'"
  | duplicateSymbol name _ => "duplicate symbol '" ++ name ++ "'"
  | symbolTableFull capacity => "symbol table full (" ++ toString capacity ++ " symbols)"
  | nodePoolExhausted capacity =>
    "program too large: node pool exhausted (" ++ toString capacity ++ " nodes)"
  | codeBufferOverflow capacity =>
    "code buffer overflow (capacity " ++ toString capacity ++ " bytes)"
  | immediateRange value slot => slot.message ++ ": " ++ toString value
  | branchRange target offset problem =>
    "branch to '" ++ target ++ "' " ++ problem.message ++ " (offset " ++ toString offset ++ ")"
  | operand error => error.message
  | directive error => error.message

/-- The numbers of a message that a program or a limit gives. All others are small. -/
def numbers : AssemblyError → List Int
  | symbolTableFull capacity => [capacity]
  | nodePoolExhausted capacity => [capacity]
  | codeBufferOverflow capacity => [capacity]
  | immediateRange value _ => [value]
  | branchRange _ offset _ => [offset]
  | _ => []

/-- The message can be written. -/
def IsPrintable (error : AssemblyError) : Prop :=
  ∀ number ∈ error.numbers, Text.PrintableNumber number

instance (error : AssemblyError) : Decidable error.IsPrintable :=
  inferInstanceAs (Decidable (∀ number ∈ error.numbers, Text.PrintableNumber number))

/-- At most three names in quotes. -/
def suggestions (names : List String) : String :=
  ", ".intercalate ((names.take 3).map fun name ↦ "'" ++ name ++ "'")

def hint? : AssemblyError → Option String
  | undefinedSymbol _ similar =>
    if similar.isEmpty then none else some ("did you mean " ++ suggestions similar ++ "?")
  | duplicateSymbol name first =>
    first.map fun location ↦ "'" ++ name ++ "' was first defined at " ++ location.text
  | nodePoolExhausted _ => some "split the program or raise the node pool capacity"
  | immediateRange value slot => slot.hint? value
  | operand error => error.hint?
  | _ => none

end AssemblyError

structure Diagnostic where
  error : AssemblyError
  location : Option Location
  hint : Option String
  sourceLine : Option String
  deriving DecidableEq, Repr

/-- The diagnostic of an error at a place, with its own hint and without the source line. -/
def AssemblyError.locatedAt (location : Location) (error : AssemblyError) : Diagnostic :=
  ⟨error, some location, error.hint?, none⟩

namespace Diagnostic

def headline (diagnostic : Diagnostic) : String :=
  match diagnostic.location with
  | some location => location.text ++ ": error: " ++ diagnostic.error.message
  | none => "error: " ++ diagnostic.error.message

/-- A caret under a column of a line that is indented by four. -/
def caret (column : Int) : String :=
  String.ofList (List.replicate (3 + column).toNat ' ') ++ "^"

/-- The source line and the caret, where place and line are known. -/
def excerpt (diagnostic : Diagnostic) : List String :=
  match diagnostic.location, diagnostic.sourceLine with
  | some location, some line =>
    ("    " ++ line) :: if 0 < location.column then [caret location.column] else []
  | _, _ => []

/-- The lines of the text; an empty hint is left out. -/
def lines (diagnostic : Diagnostic) : List String :=
  let hints := match diagnostic.hint with
    | some hint => if hint.isEmpty then [] else ["hint: " ++ hint]
    | none => []
  diagnostic.headline :: diagnostic.excerpt ++ hints

def text (diagnostic : Diagnostic) : String := "\n".intercalate diagnostic.lines

def withSourceLine (line : String) (diagnostic : Diagnostic) : Diagnostic :=
  { diagnostic with sourceLine := some line }

/-- Adds the line of the source at the place of the diagnostic, unless it is there. -/
def locate (source : String) (diagnostic : Diagnostic) : Diagnostic :=
  match diagnostic.sourceLine, diagnostic.location with
  | none, some location =>
    match sourceLine? source location.line with
    | some line => diagnostic.withSourceLine (dropReturns line)
    | none => diagnostic
  | _, _ => diagnostic

@[simp] theorem error_locate (source : String) (diagnostic : Diagnostic) :
    (diagnostic.locate source).error = diagnostic.error := by
  unfold locate
  split
  · split <;> rfl
  · rfl

end Diagnostic

end MiniA64
