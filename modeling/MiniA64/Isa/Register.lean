import MiniA64.Numeral
import MiniA64.Text.Decimal

/-!
# Registers

A register field holds a number from 0 to 31. Numbers below 31 name a general register; 31 is
the stack pointer or the zero register, and the instruction decides which. Source text keeps
the two apart, so a written register name remembers which of them was meant.
-/

namespace MiniA64

/-- The two operand widths: a w register is the lower half of an x register. -/
inductive Width
  | w32
  | w64
  deriving DecidableEq, Repr, Inhabited

namespace Width

@[reducible] def bits : Width → Nat
  | w32 => 32
  | w64 => 64

/-- The bit that selects the width in most encodings. -/
def bit : Width → BitVec 1
  | w32 => 0
  | w64 => 1

def ofBit (wide : Bool) : Width := if wide then w64 else w32

theorem bits_pos (width : Width) : 0 < width.bits := by cases width <;> decide

end Width

abbrev Reg := BitVec 5

namespace Reg

/-- Number 31, the stack pointer or the zero register. -/
def special : Reg := 31

def link : Reg := 30

/-- The name in a slot where 31 is the zero register. -/
def name (reg : Reg) (width : Width) : String :=
  match width with
  | .w32 => if reg = special then "wzr" else "w" ++ toString reg.toNat
  | .w64 => if reg = special then "xzr" else "x" ++ toString reg.toNat

/-- The name in a slot where 31 is the stack pointer. -/
def nameSp (reg : Reg) (width : Width) : String :=
  if reg = special then
    match width with
    | .w32 => "wsp"
    | .w64 => "sp"
  else reg.name width

end Reg

/-- A register as written in source text. -/
inductive RegisterName
  | general (index : Fin 31) (width : Width)
  | stackPointer (width : Width)
  | zero (width : Width)
  deriving DecidableEq, Repr, Inhabited

namespace RegisterName

def number : RegisterName → Reg
  | general index _ => BitVec.ofNat 5 index.val
  | stackPointer _ => Reg.special
  | zero _ => Reg.special

def width : RegisterName → Width
  | general _ width => width
  | stackPointer width => width
  | zero width => width

def isStackPointer : RegisterName → Bool
  | stackPointer _ => true
  | _ => false

def isZero : RegisterName → Bool
  | zero _ => true
  | _ => false

/-- The names that are not a letter and a number. -/
def ofFixedName? : String → Option RegisterName
  | "sp" => some (stackPointer .w64)
  | "wsp" => some (stackPointer .w32)
  | "xzr" => some (zero .w64)
  | "wzr" => some (zero .w32)
  | "lr" => some (general 30 .w64)
  | _ => none

def ofNumber? (width : Width) (number : Nat) : Option RegisterName :=
  if h : number < 31 then some (general ⟨number, h⟩ width) else none

/-- The width that the first letter of a numbered register names. -/
def widthOfLetter? : Char → Option Width
  | 'x' => some .w64
  | 'w' => some .w32
  | _ => none

/--
Reads a register name in any letter case. Register numbers are written without leading zeros,
in decimal digits of any script. Digit characters that are not decimal digits, such as
superscripts, look like a number and are refused with an error, and so are too many digits.
-/
def parse (name : String) : Except Text.NumeralError (Option RegisterName) :=
  let lowered := Text.lower name
  match ofFixedName? lowered with
  | some register => .ok (some register)
  | none =>
    match lowered.toList with
    | letter :: first :: rest =>
      match widthOfLetter? letter with
      | none => .ok none
      | some width =>
        if !(first :: rest).all Text.isDigit then .ok none
        else if first = '0' && !rest.isEmpty then .ok none
        else (Text.decimal (first :: rest)).map (ofNumber? width)
    | _ => .ok none

/-- A register name, where anything else counts as no register. -/
def parse? (name : String) : Option RegisterName :=
  match parse name with
  | .ok register => register
  | .error _ => none

end RegisterName

end MiniA64
