import MiniA64.Assembly.Grammar
import MiniA64.Assembly.Trial.Reading

/-!
# Parsing while reading

The parser as it works while its source is being read. It takes one token after another from a
reader, looks one token ahead where the grammar has to, and counts what it scans and keeps what it
consumes. Nothing ends its loops but the tokens. An error is a token like every other one here, with
further tokens behind it, and only the end of the input cannot be consumed. A parser that goes on
for ever has no answer.

The grammar is the one for all tokens of a source, with its steps in the order in which they are
carried out. They lapse at the limits of the host: a number of too many decimal digits is not
scanned, and not written into a message, and a statement that shares its line with labels is read by
one call for each label within the call for the label before it, for which there is only so much
room.
-/

namespace MiniA64

/-- Why a parser gives up. -/
inductive Refusal
  | grammar (token : Token) (error : GrammarError)
  | noNode (capacity : Int) (location : Location)
  | raised (reason : Raised)

/-- What is raised when a parser gives up. A syntax error shows its line already. -/
def Refusal.toRaised (source : String) : Refusal → Raised
  | grammar token error =>
    .diagnostic (((AssemblyError.grammar error).locatedAt token.location).locate source)
  | noNode capacity location =>
    .diagnostic ((AssemblyError.nodePoolExhausted capacity).locatedAt location)
  | raised reason => reason

structure PullState where
  reader : TokenReader
  current : Token
  pool : NodePool
  /-- How many tokens have been scanned. -/
  scanned : Nat
  /-- The tokens that have been consumed, the last one first. -/
  consumed : List Token

namespace PullState

/-- In front of the first token, with the start of the file in its place. -/
def new (source file : String) (capacity : Int) : PullState :=
  ⟨.new source file 1, ⟨.endOfInput, ⟨file, 1, 1⟩, 0, 0⟩, ⟨capacity, 0⟩, 0, []⟩

def scan (state : PullState) : Trial (Token × PullState) := do
  let start := state.reader.cursor.skipTrivia
  let (kind, length) ← Trial.scan start.rest
  let stop := start.skip length
  let token : Token := ⟨kind, start.location state.reader.file, start.offset, stop.offset⟩
  return (token, { state with
    reader := { state.reader with cursor := stop }
    scanned := state.scanned + 1 })

/-- The next token of the reader, which may have been looked at before. -/
def next (state : PullState) : Trial (Token × PullState) :=
  match state.reader.peeked with
  | some token => return (token, { state with reader := { state.reader with peeked := none } })
  | none => state.scan

/-- The next token of the reader, which keeps it. -/
def peek (state : PullState) : Trial (Token × PullState) :=
  match state.reader.peeked with
  | some token => return (token, state)
  | none => do
    let (token, state) ← state.scan
    return (token, { state with reader := { state.reader with peeked := some token } })

/-- Takes the first token. -/
def begin (state : PullState) : Trial (Unit × PullState) := do
  let (token, state) ← state.next
  return ((), { state with current := token })

/-- Consumes the current token, unless it is the end of the input. -/
def advance (state : PullState) : Trial (Unit × PullState) :=
  if state.current.kind = .endOfInput then return ((), state)
  else do
    let (token, after) ← state.next
    return ((), { after with current := token, consumed := state.current :: after.consumed })

end PullState

/-- What changes the state of a parser and may give up, or never end. -/
abbrev Pull := ExceptT Refusal (StateT PullState Option)

namespace Pull

def ofTrial {α : Type} (trial : PullState → Trial (α × PullState)) : Pull α := fun state ↦
  match trial state with
  | .ok (value, after) => some (.ok value, after)
  | .error reason => some (.error (.raised reason), state)

/-- Stops at a limit of the host. -/
def stop {α : Type} (limit : Limit) : Pull α := throw (.raised (.lapse (.limit limit)))

def begin : Pull Unit := ofTrial PullState.begin

def current : Pull Token := fun state ↦ some (.ok state.current, state)

/-- The token after the current one. -/
def peek : Pull Token := ofTrial PullState.peek

def advance : Pull Unit := ofTrial PullState.advance

/-- Refuses a token. An error keeps its own message. -/
def refuse {α : Type} (token : Token) (error : GrammarError) : Pull α :=
  throw (.grammar token (match token.kind with
    | .error lexical => .lexical lexical
    | _ => error))

/-- The text of a token, for a message. -/
def text (token : Token) : Pull String :=
  match token.kind with
  | .number value => if Text.PrintableNumber value then return token.text else stop .printing
  | _ => return token.text

def allocate (location : Location) : Pull Nat := do
  let state ← get
  if state.pool.capacity ≤ state.pool.used then
    if Text.PrintableNumber state.pool.capacity then throw (.noNode state.pool.capacity location)
    else stop .printing
  else
    set { state with pool := { state.pool with used := state.pool.used + 1 } }
    return state.pool.used

/-- Consumes the current token if it is of a kind. -/
def accept (kind : TokenKind) : Pull Bool := do
  let token ← current
  if token.kind = kind then
    advance
    return true
  else return false

def expect (kind : TokenKind) (error : GrammarError) : Pull Unit := do
  let token ← current
  if token.kind = kind then advance else refuse token error

def identifier (error : GrammarError) : Pull String := do
  let token ← current
  match token.kind with
  | .identifier name =>
    advance
    return name
  | _ => refuse token error

def number (error : GrammarError) : Pull Int := do
  let token ← current
  match token.kind with
  | .number value =>
    advance
    return value
  | _ => refuse token error

def signedNumber (error : GrammarError) : Pull Int := do
  let negative ← accept .minus
  let value ← number error
  return if negative then -value else value

/-- The register of a name, if it has one. -/
def registerNamed (name : String) : Pull (Option RegisterName) :=
  ofTrial fun state ↦ return (← Trial.registerNamed name, state)

/-! ## Operands -/

def register (error : GrammarError) : Pull RegisterName := do
  let token ← current
  match token.kind with
  | .identifier name =>
    match ← registerNamed name with
    | some register =>
      advance
      return register
    | none => refuse token error
  | _ => refuse token error

def baseRegister (opening : Token) : Pull Reg := do
  let base ← register .baseRegister
  if base.width = .w32 then refuse opening .narrowBase
  else if base.isZero then refuse opening .zeroBase
  else return base.number

def indexRegister (opening : Token) : Pull Reg := do
  let index ← register .indexOrOffset
  if index.width = .w32 || index.isStackPointer then refuse opening .invalidIndex
  else return index.number

def displacement (opening : Token) : Pull MemoryForm := do
  if ← accept .comma then
    if ← accept .hash then
      return .offset (← signedNumber .offsetAfterHash)
    else
      match (← current).kind with
      | .identifier _ => return .index (← indexRegister opening)
      | _ => return .offset (← signedNumber .indexOrOffset)
  else return .offset 0

def preIndexed (opening : Token) (inside : MemoryForm) : Pull MemoryForm := do
  if ← accept .bang then
    match inside with
    | .offset bytes => return .preIndex bytes
    | _ => refuse opening .preIndexOfIndex
  else return inside

/-- The token after a comma is looked at, since the comma may also be the one between operands. -/
def postIndexed (opening : Token) (form : MemoryForm) : Pull MemoryForm := do
  if (← current).kind = .comma then
    if (← peek).kind = .hash then
      match form with
      | .preIndex _ => refuse opening .preAndPostIndex
      | .offset 0 =>
        advance
        advance
        return .postIndex (← signedNumber .postIndexOffset)
      | _ => refuse opening .postIndexOfOffset
    else return form
  else return form

def memory (opening : Token) : Pull MemoryOperand := do
  let base ← baseRegister opening
  let inside ← displacement opening
  expect .rightBracket .closingBracket
  let form ← preIndexed opening inside
  return ⟨base, ← postIndexed opening form⟩

def immediateOrSymbol : Pull OperandKind := do
  match (← current).kind with
  | .identifier name =>
    advance
    return .symbol name
  | _ => return .immediate (← signedNumber .immediateAfterHash)

def named (name : String) : Pull OperandKind := do
  match ← registerNamed name with
  | some register =>
    advance
    return .register register
  | none =>
    match ShiftKind.ofName? (Text.lower name) with
    | some kind =>
      if (← peek).kind = .hash then
        advance
        advance
        return .shift kind (← signedNumber .shiftAmount)
      else
        advance
        return .symbol name
    | none =>
      advance
      return .symbol name

def operandKind (token : Token) : Pull OperandKind := do
  match token.kind with
  | .leftBracket =>
    advance
    return .memory (← memory token)
  | .hash =>
    advance
    immediateOrSymbol
  | .identifier name => named name
  | .number _ => return .immediate (← signedNumber .operand)
  | .minus => return .immediate (← signedNumber .operand)
  | _ => refuse token (.operandStart (← text token))

def operand : Pull Operand := do
  let token ← current
  let kind ← operandKind token
  return ⟨← allocate token.location, token.location, kind⟩

def argumentKind (token : Token) : Pull OperandKind := do
  match token.kind with
  | .identifier name =>
    advance
    return .symbol name
  | .string raw =>
    advance
    return .string raw
  | .dot =>
    advance
    return .symbol ("." ++ (← identifier .nameAfterDot))
  | .hash =>
    advance
    return .immediate (← signedNumber .directiveArgument)
  | _ => return .immediate (← signedNumber .directiveArgument)

def argument : Pull Operand := do
  let token ← current
  let kind ← argumentKind token
  return ⟨← allocate token.location, token.location, kind⟩

/-- Items as long as there are commas. -/
def afterCommas (item : Pull Operand) : Pull (List Operand) := do
  if ← accept .comma then
    let next ← item
    let rest ← item |>.afterCommas
    return next :: rest
  else return []
partial_fixpoint

def operandList (item : Pull Operand) : Pull (List Operand) := do
  match (← current).kind with
  | .newline => return []
  | .endOfInput => return []
  | _ =>
    let first ← item
    let rest ← afterCommas item
    return first :: rest

/-! ## Statements -/

def endOfStatement : Pull Unit := do
  let token ← current
  match token.kind with
  | .newline => advance
  | .endOfInput => return
  | _ => refuse token (.trailing (← text token))

/-- An instruction after its mnemonic. -/
def instruction (first : Token) (spelling : String) : Pull Statement := do
  match Mnemonic.ofSpelling? spelling with
  | none => refuse first (.unknownMnemonic spelling)
  | some mnemonic =>
    let operands ← operandList operand
    return ⟨← allocate first.location, first.location, .instruction mnemonic spelling operands⟩

def directiveName : Pull Directive := do
  let token ← current
  let spelling ← identifier .directiveName
  match Directive.ofSpelling? spelling with
  | some name => return name
  | none => refuse token (.unknownDirective (Text.lower spelling))

/-- A directive after its dot. -/
def directive (dot : Token) : Pull Statement := do
  let name ← directiveName
  let arguments ← operandList argument
  return ⟨← allocate dot.location, dot.location, .directive name arguments⟩

/-- A statement that begins with no label. -/
def unlabelled : Pull Statement := do
  let first ← current
  match first.kind with
  | .dot =>
    advance
    directive first
  | .identifier name =>
    advance
    instruction first name
  | _ => refuse first (.statementStart (← text first))

/-- A statement, or a label and the statement that shares its line, which is read by a call within
the call for the label. There is room for so many of these calls. -/
def labelled (item : Pull Statement) : Nat → Pull (List Statement)
  | 0 => stop .nesting
  | depth + 1 => do
    let first ← current
    match first.kind with
    | .identifier name =>
      if (← peek).kind = .colon then
        advance
        advance
        let label : Statement := ⟨← allocate first.location, first.location, .label name⟩
        let next ← current
        if next.kind = .newline ∨ next.kind = .endOfInput then return [label]
        else
          let rest ← labelled item depth
          return label :: rest
      else return [← item]
    | _ => return [← item]

/-- The statements of lines up to the end of the input. -/
def lines (item : Pull (List Statement)) : Pull (List Statement) := do
  if (← current).kind = .endOfInput then return []
  else if ← accept .newline then item |>.lines
  else
    let here ← item
    endOfStatement
    let rest ← item |>.lines
    return here ++ rest
partial_fixpoint

def statements (depth : Nat) : Pull (List Statement) := (unlabelled.labelled depth).lines

def program (depth : Nat) (source file : String) : Pull Program := do
  begin
  let root ← allocate ⟨file, 1, 1⟩
  let statements ← statements depth
  let state ← get
  return ⟨source, file, root, statements, state.pool.used⟩

/-- Reads a program, with room for so many calls within one another. There is an answer if this
comes to an end. -/
def parse (depth : Nat) (source file : String) (capacity : Int) :
    Option (Except Refusal Program × PullState) :=
  (program depth source file).run.run (.new source file capacity)

end Pull

end MiniA64
