import MiniA64.Assembly.Parser

/-!
# Grammar

Statements end at the end of a line; a label may share its line with the statement after it.
Operands are told apart by their first token. A memory operand is one of

* `[base]`, `[base, #n]`, `[base, n]` and `[base, index]`,
* `[base]!`, `[base, #n]!` and `[base, n]!`,
* `[base], #n`, also when an offset of zero is written inside the brackets.
-/

namespace MiniA64

namespace Grammar

open MiniA64.Parser

def register (error : GrammarError) : Parser RegisterName := do
  let token ← current
  match token.kind with
  | .identifier name =>
    match RegisterName.parse? name with
    | some register =>
      advance
      return register
    | none => refuse token error
  | _ => refuse token error

/-- The base register of a memory operand, where number 31 is the stack pointer. -/
def baseRegister (opening : Token) : Parser Reg := do
  let base ← register .baseRegister
  if base.width = .w32 then refuse opening .narrowBase
  else if base.isZero then refuse opening .zeroBase
  else return base.number

/-- An index register, where number 31 is the zero register. -/
def indexRegister (opening : Token) : Parser Reg := do
  let index ← register .indexOrOffset
  if index.width = .w32 || index.isStackPointer then refuse opening .invalidIndex
  else return index.number

/-- What is added to the base inside the brackets. -/
def displacement (opening : Token) : Parser MemoryForm := do
  if ← accept .comma then
    if ← accept .hash then
      return .offset (← signedNumber .offsetAfterHash)
    else
      match (← current).kind with
      | .identifier _ => return .index (← indexRegister opening)
      | _ => return .offset (← signedNumber .indexOrOffset)
  else return .offset 0

/-- Makes an offset a pre-index if an exclamation mark follows the brackets. -/
def preIndexed (opening : Token) (inside : MemoryForm) : Parser MemoryForm := do
  if ← accept .bang then
    match inside with
    | .offset bytes => return .preIndex bytes
    | _ => refuse opening .preIndexOfIndex
  else return inside

/-- Makes a bare base a post-index if a comma and a hash follow. -/
def postIndexed (opening : Token) (form : MemoryForm) : Parser MemoryForm := do
  if (← current).kind = .comma ∧ (← following) = .hash then
    match form with
    | .preIndex _ => refuse opening .preAndPostIndex
    | .offset 0 =>
      advance
      advance
      return .postIndex (← signedNumber .postIndexOffset)
    | _ => refuse opening .postIndexOfOffset
  else return form

/-- A memory operand after its opening bracket. -/
def memory (opening : Token) : Parser MemoryOperand := do
  let base ← baseRegister opening
  let inside ← displacement opening
  expect .rightBracket .closingBracket
  let form ← preIndexed opening inside
  return ⟨base, ← postIndexed opening form⟩

def immediateOrSymbol : Parser OperandKind := do
  match (← current).kind with
  | .identifier name =>
    advance
    return .symbol name
  | _ => return .immediate (← signedNumber .immediateAfterHash)

/-- A name as an operand. The name of a shift is one if a hash follows. -/
def named (name : String) : Parser OperandKind := do
  match RegisterName.parse? name with
  | some register =>
    advance
    return .register register
  | none =>
    match ShiftKind.ofName? (Text.lower name) with
    | some kind =>
      if (← following) = .hash then
        advance
        advance
        return .shift kind (← signedNumber .shiftAmount)
      else
        advance
        return .symbol name
    | none =>
      advance
      return .symbol name

def operandKind (token : Token) : Parser OperandKind := do
  match token.kind with
  | .leftBracket =>
    advance
    return .memory (← memory token)
  | .hash =>
    advance
    immediateOrSymbol
  | .identifier name => named name
  | .number _ => return .immediate (← signedNumber .operand)
  | .minus => return .immediate (← signedNumber .operand)
  | _ => refuse token (.operandStart token.text)

def operand : Parser Operand := do
  let token ← current
  let kind ← operandKind token
  return ⟨← allocate token.location, token.location, kind⟩

/-- A symbol, a string, a section name with its dot, or a number with or without a hash. -/
def argumentKind (token : Token) : Parser OperandKind := do
  match token.kind with
  | .identifier name =>
    advance
    return .symbol name
  | .string raw =>
    advance
    return .string raw
  | .dot =>
    advance
    return .symbol ("." ++ (← identifier .nameAfterDot))
  | .hash =>
    advance
    return .immediate (← signedNumber .directiveArgument)
  | _ => return .immediate (← signedNumber .directiveArgument)

def argument : Parser Operand := do
  let token ← current
  let kind ← argumentKind token
  return ⟨← allocate token.location, token.location, kind⟩

theorem register_plain (error : GrammarError) : Plain (register error) := by
  refine .bind .current fun token ↦ ?_
  split
  · split
    · exact .bind .advance fun _ ↦ .pure _
    · exact .refuse _ _
  · exact .refuse _ _

theorem memory_plain (opening : Token) : Plain (memory opening) := by
  have base : Plain (baseRegister opening) := by
    refine .bind (register_plain _) fun base ↦ ?_
    split
    · exact .refuse _ _
    · split
      · exact .refuse _ _
      · exact .pure _
  have index : Plain (indexRegister opening) := by
    refine .bind (register_plain _) fun index ↦ ?_
    split
    · exact .refuse _ _
    · exact .pure _
  have inside : Plain (displacement opening) := by
    refine .bind (.accept _) fun comma ↦ ?_
    split
    · refine .bind (.accept _) fun hash ↦ ?_
      split
      · exact .bind (.signedNumber _) fun _ ↦ .pure _
      · refine .bind .current fun token ↦ ?_
        split
        · exact .bind index fun _ ↦ .pure _
        · exact .bind (.signedNumber _) fun _ ↦ .pure _
    · exact .pure _
  have pre (form : MemoryForm) : Plain (preIndexed opening form) := by
    refine .bind (.accept _) fun bang ↦ ?_
    split
    · split
      · exact .pure _
      · exact .refuse _ _
    · exact .pure _
  have post (form : MemoryForm) : Plain (postIndexed opening form) := by
    refine .bind .current fun token ↦ .bind .following fun next ↦ ?_
    split
    · split
      · exact .refuse _ _
      · exact .bind .advance fun _ ↦ .bind .advance fun _ ↦
          .bind (.signedNumber _) fun _ ↦ .pure _
      · exact .refuse _ _
    · exact .pure _
  exact .bind base fun _ ↦ .bind inside fun _ ↦ .bind (.expect _ _) fun _ ↦
    .bind (pre _) fun _ ↦ .bind (post _) fun _ ↦ .pure _

theorem named_plain (name : String) : Plain (named name) := by
  unfold named
  split
  · exact .bind .advance fun _ ↦ .pure _
  · split
    · refine .bind .following fun next ↦ ?_
      split
      · exact .bind .advance fun _ ↦ .bind .advance fun _ ↦
          .bind (.signedNumber _) fun _ ↦ .pure _
      · exact .bind .advance fun _ ↦ .pure _
    · exact .bind .advance fun _ ↦ .pure _

theorem operandKind_plain (token : Token) : Plain (operandKind token) := by
  unfold operandKind
  split
  · exact .bind .advance fun _ ↦ .bind (memory_plain _) fun _ ↦ .pure _
  · refine .bind .advance fun _ ↦ .bind .current fun next ↦ ?_
    split
    · exact .bind .advance fun _ ↦ .pure _
    · exact .bind (.signedNumber _) fun _ ↦ .pure _
  · exact named_plain _
  · exact .bind (.signedNumber _) fun _ ↦ .pure _
  · exact .bind (.signedNumber _) fun _ ↦ .pure _
  · exact .refuse _ _

theorem argumentKind_plain (token : Token) : Plain (argumentKind token) := by
  unfold argumentKind
  split
  · exact .bind .advance fun _ ↦ .pure _
  · exact .bind .advance fun _ ↦ .pure _
  · exact .bind .advance fun _ ↦ .bind (.identifier _) fun _ ↦ .pure _
  · exact .bind .advance fun _ ↦ .bind (.signedNumber _) fun _ ↦ .pure _
  · exact .bind (.signedNumber _) fun _ ↦ .pure _

theorem operand_shrinks : Shrinks operand :=
  .bind .current fun _ ↦ .bind (operandKind_plain _).shrinks fun _ ↦
    .bind (.allocate _) fun _ ↦ .pure _

theorem argument_shrinks : Shrinks argument :=
  .bind .current fun _ ↦ .bind (argumentKind_plain _).shrinks fun _ ↦
    .bind (.allocate _) fun _ ↦ .pure _

/-- Operands up to the end of the line, which is not consumed. -/
def operandList (item : Parser Operand) (shrinks : Shrinks item) : Parser (List Operand) := do
  match (← current).kind with
  | .newline => return []
  | .endOfInput => return []
  | _ => commaSeparated item shrinks

theorem operandList_shrinks (item : Parser Operand) (shrinks : Shrinks item) :
    Shrinks (operandList item shrinks) := by
  refine .bind .current fun token ↦ ?_
  split
  · exact .pure _
  · exact .pure _
  · exact commaSeparated_shrinks _ _

/-- Consumes the end of the line; the end of the input serves as one. -/
def endOfStatement : Parser Unit := do
  let token ← current
  match token.kind with
  | .newline => advance
  | .endOfInput => return
  | _ => refuse token (.trailing token.text)

theorem endOfStatement_plain : Plain endOfStatement := by
  refine .bind .current fun token ↦ ?_
  split
  · exact .advance
  · exact .pure _
  · exact .refuse _ _

/-- An instruction after its mnemonic, up to the end of the line. -/
def instruction (first : Token) (spelling : String) : Parser Statement := do
  match Mnemonic.ofSpelling? spelling with
  | none => refuse first (.unknownMnemonic spelling)
  | some mnemonic =>
    let operands ← operandList operand operand_shrinks
    let slot ← allocate first.location
    endOfStatement
    return ⟨slot, first.location, .instruction mnemonic spelling operands⟩

theorem instruction_shrinks (first : Token) (spelling : String) :
    Shrinks (instruction first spelling) := by
  unfold instruction
  split
  · exact .refuse _ _
  · exact .bind (operandList_shrinks _ _) fun _ ↦ .bind (.allocate _) fun _ ↦
      .bind endOfStatement_plain.shrinks fun _ ↦ .pure _

/-- The name of a directive after its dot. -/
def directiveName : Parser Directive := do
  let token ← current
  let spelling ← identifier .directiveName
  match Directive.ofSpelling? spelling with
  | some name => return name
  | none => refuse token (.unknownDirective (Text.lower spelling))

theorem directiveName_plain : Plain directiveName := by
  refine .bind .current fun token ↦ .bind (.identifier _) fun spelling ↦ ?_
  split
  · exact .pure _
  · exact .refuse _ _

/-- A directive after its dot, up to the end of the line. -/
def directive (dot : Token) : Parser Statement := do
  let name ← directiveName
  let arguments ← operandList argument argument_shrinks
  let slot ← allocate dot.location
  endOfStatement
  return ⟨slot, dot.location, .directive name arguments⟩

theorem directive_shrinks (dot : Token) : Shrinks (directive dot) :=
  .bind directiveName_plain.shrinks fun _ ↦ .bind (operandList_shrinks _ _) fun _ ↦
    .bind (.allocate _) fun _ ↦ .bind endOfStatement_plain.shrinks fun _ ↦ .pure _

/-- A label after its name, with its colon. -/
def label (first : Token) (name : String) : Parser Statement := do
  advance
  return ⟨← allocate first.location, first.location, .label name⟩

theorem label_shrinks (first : Token) (name : String) : Shrinks (label first name) :=
  .bind .advance fun _ ↦ .bind (.allocate _) fun _ ↦ .pure _

/-- The statement that an identifier begins. -/
def namedStatement (first : Token) (name : String) (next : TokenKind) : Parser Statement :=
  match next with
  | .colon => label first name
  | _ => instruction first name

theorem namedStatement_shrinks (first : Token) (name : String) (next : TokenKind) :
    Shrinks (namedStatement first name next) := by
  unfold namedStatement
  split
  · exact label_shrinks _ _
  · exact instruction_shrinks _ _

/-- The next statement, or the end of an empty line. At the end of the input there is neither. -/
def statement? : Parser (Option (Option Statement)) := do
  let first ← current
  let next ← following
  match first.kind with
  | .endOfInput => return none
  | .newline =>
    advance
    return some none
  | .dot =>
    advance
    return some (some (← directive first))
  | .identifier name =>
    advance
    return some (some (← namedStatement first name next))
  | _ => refuse first (.statementStart first.text)

theorem statement?_consumes : Consumes statement? := by
  intro state item after h
  obtain ⟨first, between, step₁, h⟩ := bind_eq_ok h
  cases step₁
  obtain ⟨next, between, step₂, h⟩ := bind_eq_ok h
  cases step₂
  cases kind : state.current.kind
  case newline =>
    rw [kind] at h
    exact consumes_of_advance (by rw [kind]; rfl) (.pure _) h
  case dot =>
    rw [kind] at h
    exact consumes_of_advance (by rw [kind]; rfl)
      (.bind (directive_shrinks _) fun _ ↦ .pure _) h
  case identifier name =>
    rw [kind] at h
    exact consumes_of_advance (by rw [kind]; rfl)
      (.bind (namedStatement_shrinks _ _ _) fun _ ↦ .pure _) h
  all_goals
    rw [kind] at h
    cases h

/-- A whole program. Its own node is the first to be made. -/
def program (file : String) : Parser (Nat × List Statement) := do
  let root ← allocate ⟨file, 1, 1⟩
  let statements ← many statement? statement?_consumes
  return (root, statements.filterMap id)

end Grammar

namespace Program

/-- Reads a program. A diagnostic that the grammar gives shows its source line. -/
def parse (source file : String) (capacity : Int) : Except Diagnostic Program :=
  let tokens := (Cursor.start source 1).tokens file
  match (Grammar.program file).run ⟨tokens, ⟨capacity, 0⟩⟩ with
  | .ok ((root, statements), state) => .ok ⟨source, file, root, statements, state.pool.used⟩
  | .error diagnostic =>
    match diagnostic.error with
    | .grammar _ => .error (diagnostic.locate source)
    | _ => .error diagnostic

end Program

end MiniA64
