import MiniA64.Assembly.Grammar

/-!
# The arena of nodes

The nodes of a program stand in one row, and a node names those below it by their positions in it,
which are its handles. A node is stored when it is complete, so what is below it has been stored
before; only the node of the program is stored first, empty, and takes in the handles of its
statements line by line. The row has room for so many nodes and no more.

The loops are the parser's, over the lines, over the operands and over the labels of a line; a
parser that goes on for ever has no answer.
-/

namespace MiniA64

namespace Arena

/-- What a node holds, with the handles of the nodes below it. -/
inductive Content
  | program (statements : List Nat)
  | label (name : String)
  | instruction (mnemonic : Mnemonic) (spelling : String) (operands : List Nat)
  | directive (name : Directive) (arguments : List Nat)
  | operand (kind : OperandKind)
  deriving DecidableEq, Repr

namespace Content

/-- The handles of the nodes below a node. -/
def handles : Content → List Nat
  | program statements => statements
  | label _ => []
  | instruction _ _ operands => operands
  | directive _ arguments => arguments
  | operand _ => []

/-- The node of a program with another statement. -/
def attach (handle : Nat) : Content → Content
  | program statements => program (statements ++ [handle])
  | other => other

end Content

structure Node where
  location : Location
  content : Content
  deriving DecidableEq, Repr

end Arena

structure Arena where
  capacity : Int
  nodes : List Arena.Node
  deriving DecidableEq, Repr

namespace Arena

/-- The node of a handle. -/
def node? (arena : Arena) (handle : Nat) : Option Node := arena.nodes[handle]?

/-- What a parser leaves behind: all nodes, and the handle of the one for the program. -/
structure Tree where
  source : String
  file : String
  root : Nat
  arena : Arena
  deriving DecidableEq, Repr

structure State where
  tokens : List Token
  arena : Arena

/-- The same place for a parser that only counts the nodes. -/
def State.counted (state : State) : ParserState :=
  ⟨state.tokens, ⟨state.arena.capacity, state.arena.nodes.length⟩⟩

/-- What reads tokens and stores nodes. It may be refused, or never come to an end. -/
abbrev Growth := StateT State (ExceptT Diagnostic Option)

namespace Growth

/-- A parser that stores no node. -/
def reading {α : Type} (parser : Parser α) : Growth α := fun state ↦
  match parser state.counted with
  | .ok (value, after) => some (.ok (value, { state with tokens := after.tokens }))
  | .error diagnostic => some (.error diagnostic)

/-- Stores a node and returns its handle. -/
def add (location : Location) (content : Content) : Growth Nat := fun state ↦
  if state.arena.capacity ≤ state.arena.nodes.length then
    some (.error ((AssemblyError.nodePoolExhausted state.arena.capacity).locatedAt location))
  else
    some (.ok (state.arena.nodes.length, { state with
      arena := { state.arena with nodes := state.arena.nodes ++ [⟨location, content⟩] } }))

/-- Takes the handle of a statement in at the node of the program. -/
def attach (root handle : Nat) : Growth Unit := fun state ↦
  some (.ok ((), { state with
    arena := { state.arena with
      nodes := state.arena.nodes.modify root fun node ↦
        { node with content := node.content.attach handle } } }))

def operand : Growth Nat := do
  let token ← reading Parser.current
  let kind ← reading (Grammar.operandKind token)
  add token.location (.operand kind)

def argument : Growth Nat := do
  let token ← reading Parser.current
  let kind ← reading (Grammar.argumentKind token)
  add token.location (.operand kind)

/-- Items as long as there are commas. -/
def afterCommas (item : Growth Nat) : Growth (List Nat) := do
  if ← reading (Parser.accept .comma) then
    let next ← item
    let rest ← item |>.afterCommas
    return next :: rest
  else return []
partial_fixpoint

def operandList (item : Growth Nat) : Growth (List Nat) := do
  match (← reading Parser.current).kind with
  | .newline => return []
  | .endOfInput => return []
  | _ =>
    let first ← item
    let rest ← item |>.afterCommas
    return first :: rest

/-- An instruction after its mnemonic. -/
def instruction (first : Token) (spelling : String) : Growth Nat := do
  match Mnemonic.ofSpelling? spelling with
  | none => reading (Parser.refuse first (.unknownMnemonic spelling))
  | some mnemonic =>
    let operands ← operandList operand
    add first.location (.instruction mnemonic spelling operands)

/-- A directive after its dot. -/
def directive (dot : Token) : Growth Nat := do
  let name ← reading Grammar.directiveName
  let arguments ← operandList argument
  add dot.location (.directive name arguments)

/-- A statement, or a label, and whether the line goes on behind it. -/
def lineItem : Growth (Nat × Bool) := do
  let first ← reading Parser.current
  match first.kind with
  | .dot =>
    reading Parser.advance
    return (← directive first, false)
  | .identifier name =>
    if (← reading Parser.following) = .colon then
      reading Parser.advance
      reading Parser.advance
      let label ← add first.location (.label name)
      let next ← reading Parser.current
      return (label, next.kind ≠ .newline ∧ next.kind ≠ .endOfInput)
    else
      reading Parser.advance
      return (← instruction first name, false)
  | _ => reading (Parser.refuse first (.statementStart first.text))

/-- Items as long as they are not the last ones. -/
def upToLast (item : Growth (Nat × Bool)) : Growth (List Nat) := do
  let (handle, more) ← item
  if more then
    let rest ← item |>.upToLast
    return handle :: rest
  else return [handle]
partial_fixpoint

/-- The handles of a statement, or of a label and what shares its line. -/
def statement : Growth (List Nat) := upToLast lineItem

/-- Takes the statements of a line in at the program, if there are any. -/
def line (root : Nat) : Growth Unit := do
  if ← reading (Parser.accept .newline) then return
  else
    let handles ← statement
    handles.forM (attach root)
    reading Grammar.endOfStatement

/-- Steps up to the end of the input. -/
def untilEnd (step : Growth Unit) : Growth Unit := do
  if (← reading Parser.current).kind = .endOfInput then return
  else
    step
    step |>.untilEnd
partial_fixpoint

/-- Reads lines up to the end of the input. -/
def lines (root : Nat) : Growth Unit := untilEnd (line root)

def program (file : String) : Growth Nat := do
  let root ← add ⟨file, 1, 1⟩ (.program [])
  lines root
  return root

end Growth

/-- Reads a program into an empty arena. There is an answer if this comes to an end. -/
def parse (source file : String) (capacity : Int) : Option (Except Diagnostic Tree) :=
  match Growth.program file ⟨(Cursor.start source 1).tokens file, ⟨capacity, []⟩⟩ with
  | none => none
  | some (.ok (root, state)) => some (.ok ⟨source, file, root, state.arena⟩)
  | some (.error diagnostic) =>
    match diagnostic.error with
    | .grammar _ => some (.error (diagnostic.locate source))
    | _ => some (.error diagnostic)

end Arena

end MiniA64
