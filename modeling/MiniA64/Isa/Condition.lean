/-!
# Flags and conditions

The four condition flags and the sixteen conditions that conditional branches test. The last
two conditions always hold.
-/

namespace MiniA64

structure Flags where
  n : Bool
  z : Bool
  c : Bool
  v : Bool
  deriving DecidableEq, Repr, Inhabited

namespace Flags

def clear : Flags := ⟨false, false, false, false⟩

/-- The flags as a four-bit number with N highest. -/
def toNat (flags : Flags) : Nat :=
  8 * flags.n.toNat + 4 * flags.z.toNat + 2 * flags.c.toNat + flags.v.toNat

def ofBits (bits : BitVec 4) : Flags :=
  ⟨bits.getLsbD 3, bits.getLsbD 2, bits.getLsbD 1, bits.getLsbD 0⟩

/-- A letter for each set flag and a dash for each clear one. -/
def text (flags : Flags) : String :=
  let mark (letter : String) (set : Bool) : String := if set then letter else "-"
  mark "N" flags.n ++ mark "Z" flags.z ++ mark "C" flags.c ++ mark "V" flags.v

end Flags

inductive Condition
  | eq
  | ne
  | cs
  | cc
  | mi
  | pl
  | vs
  | vc
  | hi
  | ls
  | ge
  | lt
  | gt
  | le
  | al
  | nv
  deriving DecidableEq, Repr, Inhabited

namespace Condition

/-- In the order of their four-bit codes. -/
def all : List Condition :=
  [eq, ne, cs, cc, mi, pl, vs, vc, hi, ls, ge, lt, gt, le, al, nv]

def code : Condition → BitVec 4
  | eq => 0
  | ne => 1
  | cs => 2
  | cc => 3
  | mi => 4
  | pl => 5
  | vs => 6
  | vc => 7
  | hi => 8
  | ls => 9
  | ge => 10
  | lt => 11
  | gt => 12
  | le => 13
  | al => 14
  | nv => 15

def ofCode (code : BitVec 4) : Condition := all.getD code.toNat nv

theorem ofCode_code (condition : Condition) : ofCode condition.code = condition := by
  cases condition <;> rfl

theorem code_ofCode (code : BitVec 4) : (ofCode code).code = code := by
  revert code
  decide

def name : Condition → String
  | eq => "eq"
  | ne => "ne"
  | cs => "cs"
  | cc => "cc"
  | mi => "mi"
  | pl => "pl"
  | vs => "vs"
  | vc => "vc"
  | hi => "hi"
  | ls => "ls"
  | ge => "ge"
  | lt => "lt"
  | gt => "gt"
  | le => "le"
  | al => "al"
  | nv => "nv"

/-- The suffixes accepted in source text: the printed names but `nv`, and two synonyms. -/
def suffixes : List (String × Condition) :=
  (all.filter (· ≠ nv)).map (fun condition ↦ (condition.name, condition)) ++
    [("hs", cs), ("lo", cc)]

def ofSuffix? (suffix : String) : Option Condition := suffixes.lookup suffix

def holds (flags : Flags) : Condition → Bool
  | eq => flags.z
  | ne => !flags.z
  | cs => flags.c
  | cc => !flags.c
  | mi => flags.n
  | pl => !flags.n
  | vs => flags.v
  | vc => !flags.v
  | hi => flags.c && !flags.z
  | ls => !flags.c || flags.z
  | ge => flags.n == flags.v
  | lt => flags.n != flags.v
  | gt => !flags.z && flags.n == flags.v
  | le => flags.z || flags.n != flags.v
  | al => true
  | nv => true

end Condition

end MiniA64
