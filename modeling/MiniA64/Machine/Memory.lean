import MiniA64.Isa.Word
import MiniA64.Text.Decimal
import MiniA64.Text.Radix

/-!
# Memory

One flat array of bytes, mapped at a base address. An access is accepted if it lies inside the
window at the base, or else, read as a plain offset, inside the array. Any other access is
rejected as a whole: it reads nothing and writes nothing.
-/

namespace MiniA64

structure Memory where
  base : Int
  bytes : Array UInt8
  /-- The number of bytes that the last loaded program occupies. -/
  programSize : Nat
  deriving DecidableEq

inductive MemoryError
  | notPositive (size : Int)
  /-- No index reaches the end of an array of this size. -/
  | notIndexable
  /-- More than the host has left. -/
  | unavailable
  | programTooLarge (length size : Nat)
  deriving DecidableEq, Repr

def MemoryError.message : MemoryError → String
  | notPositive size =>
    if Text.PrintableNumber size then "memory size must be positive, got " ++ toString size
    else Text.tooManyDigits ""
  | notIndexable => "cannot fit 'int' into an index-sized integer"
  | unavailable => ""
  | programTooLarge length size =>
    "program of " ++ toString length ++ " bytes exceeds " ++ toString size ++ "-byte memory"

namespace Memory

/-- No array is longer, since no index reaches its end. -/
def indexLimit : Int := 2 ^ 63

/-- A blank memory, on a host that has so many bytes left for it. -/
def new (available size base : Int) : Except MemoryError Memory :=
  if size ≤ 0 then .error (.notPositive size)
  else if indexLimit ≤ size then .error .notIndexable
  else if available < size then .error .unavailable
  else .ok ⟨base, Array.replicate size.toNat 0, 0⟩

def size (memory : Memory) : Nat := memory.bytes.size

/-- Writes bytes from an offset on. -/
def putBytes (bytes : Array UInt8) (offset : Nat) : List UInt8 → Array UInt8
  | [] => bytes
  | byte :: rest => putBytes (bytes.setIfInBounds offset byte) (offset + 1) rest

/-- Puts a program at offset zero and clears the rest. -/
def load (code : List UInt8) (memory : Memory) : Except MemoryError Memory :=
  if memory.size < code.length then .error (.programTooLarge code.length memory.size)
  else
    .ok { memory with
      bytes := putBytes (Array.replicate memory.size 0) 0 code
      programSize := code.length }

/-- The offset of an access of some length, or none if it is rejected. -/
def translate (memory : Memory) (address length : Int) : Option Nat :=
  if memory.base ≤ address ∧ address - memory.base + length ≤ memory.size then
    some (address - memory.base).toNat
  else if 0 ≤ address ∧ address + length ≤ memory.size then some address.toNat
  else none

/-- The end of a slice: a negative end counts back from the end of the array. -/
def sliceEnd (size : Nat) (stop : Int) : Nat := (if stop < 0 then size + stop else stop).toNat

def slice (bytes : Array UInt8) (start : Nat) (stop : Int) : List UInt8 :=
  (bytes.extract start (sliceEnd bytes.size stop)).toList

def read (memory : Memory) (address length : Int) : Option (List UInt8) :=
  (memory.translate address length).map fun offset ↦
    slice memory.bytes offset (offset + length)

def put (memory : Memory) (offset : Nat) (data : List UInt8) : Memory :=
  { memory with bytes := putBytes memory.bytes offset data }

/-- The memory after a write, or none if the access is rejected. -/
def write (memory : Memory) (address : Int) (data : List UInt8) : Option Memory :=
  (memory.translate address data.length).map fun offset ↦ memory.put offset data

def readNat (memory : Memory) (address length : Int) : Option Nat :=
  (memory.read address length).map littleEndian

/-- Writes the low bytes of a number. -/
def writeInt (memory : Memory) (address : Int) (count : Nat) (value : Int) : Option Memory :=
  memory.write address (toLittleEndian count (value % 256 ^ count).toNat)

def byteAt? (memory : Memory) (address : Int) : Option UInt8 :=
  (memory.translate address 1).bind fun offset ↦ memory.bytes[offset]?

/-- The bytes from an address on, up to a zero byte, an unmapped address or a count. -/
def stringFrom (memory : Memory) : Nat → Int → List UInt8
  | 0, _ => []
  | count + 1, address =>
    match memory.byteAt? address with
    | none => []
    | some byte => if byte = 0 then [] else byte :: stringFrom memory count (address + 1)

/--
A string in memory. Mapped addresses in a row are at most those of the window and those of the
plain offsets, so twice the size bounds a string that has no limit.
-/
def string (memory : Memory) (address : Int) (limit : Option Int) : List UInt8 :=
  let bound := 2 * memory.size
  memory.stringFrom (match limit with
    | some limit => min limit.toNat bound
    | none => bound) address

/-- How many bytes of an access are mapped before the end of the array. -/
def span (memory : Memory) (address length : Int) : Nat :=
  if length ≤ 0 then 0
  else
    match memory.translate address 1 with
    | some offset => (min length (memory.size - offset : Int)).toNat
    | none => 0

end Memory

end MiniA64
