import MiniA64.Disassembly
import MiniA64.Machine.Run

/-!
# Inspecting a machine

What a debugger shows of a machine: the code around an address, the registers by their names, and
what has changed in memory.
-/

namespace MiniA64

namespace Registers

/-- The names of the general registers. -/
def generalNames : List (String × Reg) :=
  (List.range 31).map fun i ↦ ("x" ++ toString i, BitVec.ofNat 5 i)

def generalByName (registers : Registers) : List (String × Int) :=
  generalNames.map fun (name, reg) ↦ (name, ((registers.read reg).toNat : Int))

def specialByName (registers : Registers) : List (String × Int) :=
  [("sp", registers.sp), ("pc", registers.pc), ("nzcv", registers.flags.toNat)]

/--
The register with a number. A number above 30 reads as zero, and a negative one counts back from
the last register, as far as there are registers.
-/
def atNumber? (registers : Registers) (number : Int) : Option (BitVec 64) :=
  if 31 ≤ number then some 0
  else if 0 ≤ number then registers.general[number.toNat]?
  else if -31 ≤ number then registers.general[(31 + number).toNat]?
  else none

/-- Sets a register, of which a general one is reduced to its width. -/
def setByName (registers : Registers) (name : String) (value : Int) : Registers :=
  if name = "sp" then { registers with sp := value }
  else if name = "pc" then { registers with pc := value }
  else
    match generalNames.lookup name with
    | some reg => registers.write reg (BitVec.ofInt 64 value)
    | none => registers

end Registers

namespace Memory

/-- Adds a byte before runs of bytes, each with the offset where it begins. -/
def consRun (offset : Nat) (byte : UInt8) (runs : List (Nat × List UInt8)) :
    List (Nat × List UInt8) :=
  match runs with
  | [] => [(offset, [byte])]
  | (start, run) :: later =>
    if start = offset + 1 then (offset, byte :: run) :: later else (offset, [byte]) :: runs

/-- The longest runs of bytes that are not as in an older memory. -/
def changesFrom (old memory : Memory) : List (Nat × List UInt8) :=
  (List.range memory.size).foldr
    (fun offset runs ↦
      if old.bytes[offset]? = memory.bytes[offset]? then runs
      else consRun offset (memory.bytes.getD offset 0) runs)
    []

end Memory

namespace Machine

variable {κ φ τ : Type}

/-- The code at an address, up to the end of memory. Outside memory there is none. -/
def disassembleAt (machine : Machine κ φ τ) (address count : Int) :
    List String × Machine κ φ τ :=
  let span := machine.world.memory.span address (count * 4)
  let (data, world) := machine.world.read address (span - span % 4 : Nat)
  ((Disassembly.ofBytes .empty (data.getD []) address (some count)).map (·.listing),
    { machine with world })

/-- The next instruction, the first four registers and the flags. -/
def debugLine (machine : Machine κ φ τ) : String × Machine κ φ τ :=
  let pc := machine.registers.pc
  let (lines, machine) := machine.disassembleAt pc 1
  let code := lines.headD (Text.hexUpper 4 pc ++ ": <outside memory>")
  let values := (machine.registers.generalByName.take 4).map fun (name, value) ↦
    name ++ "=" ++ Text.hex value
  (Text.padRight 44 code ++ " " ++ "  ".intercalate values ++ "  [" ++
    machine.registers.flags.text ++ "]", machine)

end Machine

end MiniA64
