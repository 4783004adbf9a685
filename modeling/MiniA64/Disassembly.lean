import MiniA64.Isa.Printing

/-!
# Disassembly

Code as lines of text, one for each word. A line about a branch or about a load relative to the
program counter tells where it leads, by address and by name if the address has one.
-/

namespace MiniA64

structure DisassembledLine where
  address : Int
  word : Word
  text : String
  /-- What the text leaves open; empty if there is nothing to add. -/
  comment : String
  deriving DecidableEq, Repr

def DisassembledLine.listing (line : DisassembledLine) : String :=
  let code := Text.hexUpper 4 line.address ++ ": " ++ Text.hexUpper 8 line.word.toNat ++ "  " ++
    line.text
  if line.comment.isEmpty then code else Text.padRight 44 code ++ " ; " ++ line.comment

/-- Names of addresses. The first name that an address is given stays. -/
structure AddressNames where
  entries : List (Int × String)
  deriving DecidableEq, Repr

namespace AddressNames

def empty : AddressNames := ⟨[]⟩

def name? (names : AddressNames) (address : Int) : Option String :=
  (names.entries.lookup address).filter (!·.isEmpty)

/-- Names addresses by symbols. -/
def addSymbols (names : AddressNames) (symbols : List (String × Int)) : AddressNames :=
  ⟨names.entries ++ symbols.map fun (name, address) ↦ (address, name)⟩

end AddressNames

/-- A place in some data where no word can be read. -/
inductive WordError
  | pastEnd (offset : Int) (size : Nat)
  | acrossEnd (offset : Int)
  | beforeStart (offset : Int) (size : Nat)
  deriving DecidableEq, Repr

def WordError.message : WordError → String
  | pastEnd offset size =>
    "Offset " ++ toString offset ++ " leaves less than one word in " ++ toString size ++ " bytes"
  | acrossEnd offset => "not enough data to unpack 4 bytes at offset " ++ toString offset
  | beforeStart offset size =>
    "offset " ++ toString offset ++ " out of range for " ++ toString size ++ "-byte buffer"

namespace Disassembly

def comment (names : AddressNames) (word : Word) (address : Int) : String :=
  match word.target? address with
  | none => ""
  | some target =>
    "-> 0x" ++ Text.hexUpper 4 target ++
      match names.name? target with
      | some name => " (" ++ name ++ ")"
      | none => ""

def line (names : AddressNames) (address : Int) (word : Word) : DisassembledLine :=
  ⟨address, word, word.text, comment names word address⟩

/-- Consecutive words from an address on. -/
def ofWords (names : AddressNames) (address : Int) : List Word → List DisassembledLine
  | [] => []
  | word :: rest => line names address word :: ofWords names (address + 4) rest

/-- The words of some data, at most a count of them if there is one. -/
def ofBytes (names : AddressNames) (data : List UInt8) (address : Int) (count : Option Int) :
    List DisassembledLine :=
  let words := Word.listOfBytes data
  ofWords names address (match count with
    | some count => words.take count.toNat
    | none => words)

/-- The word at an offset into some data; a negative offset counts back from its end. -/
def wordAt (data : List UInt8) (offset : Int) : Except WordError Word :=
  let size := data.length
  let wordFrom (start : Int) : Except WordError Word :=
    match Word.listOfBytes (data.drop start.toNat) with
    | word :: _ => .ok word
    | [] => .error (.pastEnd offset size)
  if (size : Int) < offset + 4 then .error (.pastEnd offset size)
  else if 0 ≤ offset then wordFrom offset
  else if 0 < offset + 4 then .error (.acrossEnd offset)
  else if offset + size < 0 then .error (.beforeStart offset size)
  else wordFrom (offset + size)

end Disassembly

end MiniA64
