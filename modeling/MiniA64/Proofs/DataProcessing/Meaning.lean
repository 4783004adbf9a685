import MiniA64.Proofs.Assembly.Checks
import MiniA64.Proofs.Machine.NamedRegisters
import MiniA64.Proofs.Machine.Residues

/-!
# What data-processing statements mean

The meaning of a data-processing statement in integers, from its mnemonic and its operands as they
are written. No encoding is involved: a register is what its name says, a constant is an integer,
and a result is an exact integer that is reduced to the operand width when it is stored.

Arithmetic with a negative constant is arithmetic with its residue. The assembler turns it into
the opposite operation with the magnitude instead; that both agree, with all flags, is part of
what is proved about the selected instructions.
-/

namespace MiniA64

namespace DataProcessing

/--
The operands of a statement: a destination, a first source, which is the destination unless it is
written, a second source and its shift.
-/
structure Reading where
  destination : RegisterName
  first : RegisterName
  second : OperandKind
  shift : Option (ShiftKind × Int)

/-- The operand forms. An operation without a destination names its first source in its place. -/
def Reading.of? : List OperandKind → Option Reading
  | [.register d, b] => some ⟨d, d, b, none⟩
  | [.register d, b, .shift kind amount] => some ⟨d, d, b, some (kind, amount)⟩
  | [.register d, .register a, b] => some ⟨d, a, b, none⟩
  | [.register d, .register a, b, .shift kind amount] => some ⟨d, a, b, some (kind, amount)⟩
  | _ => none

/-- A residue shifted by an amount below the width. -/
def shifted (width : Width) (kind : ShiftKind) (amount value : Nat) : Nat :=
  match kind with
  | .lsl => width.reduce (value * 2 ^ amount)
  | .lsr => value / 2 ^ amount
  | .asr => width.reduce (width.signed value / 2 ^ amount)
  | .ror => value / 2 ^ amount + value % 2 ^ amount * 2 ^ (width.bits - amount)

namespace Reading

variable (reading : Reading)

def width : Width := reading.destination.width

/-- The shift of the second source, none being a shift by zero. -/
def shiftOrNone : ShiftKind × Int := reading.shift.getD (.lsl, 0)

/-- The second source after its shift. -/
def operand? (symbols : SymbolTable) (registers : Registers) : Option Nat :=
  let source : Option Nat :=
    match reading.second with
    | .register name => some (registers.valueOf name)
    | other => (other.constant? symbols).map reading.width.reduce
  source.map (shifted reading.width reading.shiftOrNone.1 reading.shiftOrNone.2.toNat)

end Reading

/-! ## Flags -/

/-- A sum of residues carries when it is beyond the width, and overflows as a signed sum. -/
def sumFlags (width : Width) (a b : Nat) : Flags :=
  { n := 2 ^ (width.bits - 1) ≤ width.reduce (a + b)
    z := width.reduce (a + b) = 0
    c := 2 ^ width.bits ≤ a + b
    v := !width.isSigned (width.signed a + width.signed b) }

/-- A difference of residues carries when nothing is borrowed. -/
def differenceFlags (width : Width) (a b : Nat) : Flags :=
  { n := 2 ^ (width.bits - 1) ≤ width.reduce (a - b)
    z := width.reduce (a - b) = 0
    c := b ≤ a
    v := !width.isSigned (width.signed a - width.signed b) }

def logicalFlags (width : Width) (result : Nat) : Flags :=
  { n := 2 ^ (width.bits - 1) ≤ result, z := result = 0, c := false, v := false }

/-! ## Effects -/

/-- An exact result, where it goes if it is kept, and the flags if they are set. -/
structure Effect where
  destination : Option RegisterName
  width : Width
  result : Int
  flags : Option Flags

def Effect.apply (effect : Effect) (registers : Registers) : Registers :=
  let flagged : Registers := { registers with flags := effect.flags.getD registers.flags }
  match effect.destination with
  | some name => flagged.store name (effect.width.reduce effect.result)
  | none => flagged

/-- The complement of a residue. -/
def complement (width : Width) (value : Nat) : Nat := 2 ^ width.bits - 1 - value

def logicalResult (width : Width) (name : LogicalName) (a b : Nat) : Nat :=
  match name with
  | .and | .ands => a &&& b
  | .orr => a ||| b
  | .eor => a ^^^ b
  | .bic => a &&& complement width b
  | .orn => a ||| complement width b

/-- The value with the sixteen bits from a bit on taken from another one. -/
def withWindow (low value inserted : Nat) : Nat :=
  value / 2 ^ (low + 16) * 2 ^ (low + 16) + inserted + value % 2 ^ low

/-- What a statement does with its first source and its second source after the shift. -/
def effectOf? (mnemonic : Mnemonic) (reading : Reading) (a b : Nat) : Option Effect :=
  let width := reading.width
  let kept (result : Int) (flags : Option Flags) : Option Effect :=
    some ⟨reading.destination, width, result, flags⟩
  let dropped (flags : Flags) : Option Effect := some ⟨none, width, 0, flags⟩
  match mnemonic with
  | .addSub .add set => kept (a + b) (if set then some (sumFlags width a b) else none)
  | .addSub .sub set => kept (a - b) (if set then some (differenceFlags width a b) else none)
  | .compare .add => dropped (sumFlags width a b)
  | .compare .sub => dropped (differenceFlags width a b)
  | .test => dropped (logicalFlags width (a &&& b))
  | .logical name =>
    let result := logicalResult width name a b
    kept result (if name = .ands then some (logicalFlags width result) else none)
  | .negate => kept (-b) none
  | .invert => kept (complement width b) none
  | .shift kind => kept (shifted width kind (b % width.bits) a) none
  | .divide false => kept (a / b : Nat) none
  | .divide true => kept ((width.signed a).tdiv (width.signed b)) none
  | .multiply => kept (a * b) none
  | .move => kept b none
  | .moveWide .movz => kept b none
  | .moveWide .movn => kept (complement width b) none
  | .moveWide .movk => kept (withWindow reading.shiftOrNone.2.toNat a b) none
  | _ => none

/-- The effect of a statement on the registers, if it is a data-processing statement. -/
def effect? (mnemonic : Mnemonic) (operands : List OperandKind) (symbols : SymbolTable)
    (registers : Registers) : Option Effect := do
  let reading ← Reading.of? operands
  let operand ← reading.operand? symbols registers
  effectOf? mnemonic reading (registers.valueOf reading.first) operand

end DataProcessing

/-- The mnemonics whose effect is confined to registers and flags. -/
def Mnemonic.isDataProcessing : Mnemonic → Bool
  | addSub _ _ | compare _ | test | logical _ | negate | invert | shift _ | divide _ | multiply
  | move | moveWide _ => true
  | _ => false

end MiniA64
