import MiniA64.Host.Terminal
import MiniA64.Machine.Run

/-!
# Attempted steps

A step written with the partial operations that a host language has for it: an index may lie
outside an array, a number may not be a byte, data may be missing, a length may be too large for
an index, a number may be too long to print, a shift may be negative and a modulus zero. Where one
of them fails the attempt ends with an escape; where none does, the attempt ends as the step does.

The console may be any terminal. A loop that waits for its input or for the end of a string has a
number of rounds, and needing more of them is an escape as well, so that an attempt that escapes
as endless for every number of rounds stands for a step that does not return. A run attempts steps
one after another, and it is endless if it attempts more of them than it is given.
-/

namespace MiniA64

/-- Why an attempt has no result. -/
inductive Escape
  | index (container : String)
  | byte
  | missingData
  | missingWord
  | length
  | digits
  | shift
  | modulus
  | endless
  deriving DecidableEq, Repr

def Escape.message : Escape → String
  | index container => container ++ " index out of range"
  | byte => "byte must be in range(0, 256)"
  | missingData => "object of type 'NoneType' has no len()"
  | missingWord => "unsupported operand type(s) for &: 'NoneType' and 'int'"
  | length => MemoryError.notIndexable.message
  | digits => Text.tooManyDigits ""
  | shift => "negative shift count"
  | modulus => "integer modulo by zero"
  | endless => ""

/-- The number fits the length of an array, which may also be given as a negative number. -/
def Escape.isLength (length : Int) : Bool := -2 ^ 63 ≤ length && length < 2 ^ 63

namespace Attempt

/-! ## Partial operations -/

def element {α : Type} (container : String) (values : Array α) (index : Nat) :
    Except Escape α :=
  match values[index]? with
  | some value => .ok value
  | none => .error (.index container)

def byte (value : Int) : Except Escape UInt8 :=
  if 0 ≤ value ∧ value < 256 then .ok (UInt8.ofNat value.toNat) else .error .byte

def present {α : Type} (escape : Escape) : Option α → Except Escape α
  | some value => .ok value
  | none => .error escape

def modulo (value modulus : Int) : Except Escape Int :=
  if modulus = 0 then .error .modulus else .ok (value % modulus)

/-- Shifts by all of these numbers. -/
def shifts (counts : List Int) : Except Escape Unit :=
  if counts.all (0 ≤ ·) then .ok () else .error .shift

/-- Prints a number in decimal digits. -/
def print (number : Int) : Except Escape Unit :=
  if Text.PrintableNumber number then .ok () else .error .digits

/-! ## Strings -/

/-- The bytes up to a zero byte, an unmapped address or a limit. -/
def string (memory : Memory) : Nat → Option Nat → Int → Except Escape (List UInt8)
  | 0, _, _ => .error .endless
  | rounds + 1, limit, address =>
    if limit = some 0 then .ok []
    else
      match memory.translate address 1 with
      | none => .ok []
      | some offset => do
        let byte ← element "bytearray" memory.bytes offset
        if byte = 0 then .ok []
        else do
          let rest ← string memory rounds (limit.map (· - 1)) (address + 1)
          .ok (byte :: rest)

/-! ## The framebuffer -/

/-- Makes room for the rows of a grid; there is no row to give a length if it has no height. -/
def room (size : CanvasSize) : Except Escape Unit :=
  if 0 < size.height && !Escape.isLength size.width then .error .length else .ok ()

def activate (screen : Framebuffer) : Except Escape Framebuffer := do
  if screen.isActive then .ok ()
  else room screen.defaultSize
  .ok screen.activate

def clear (screen : Framebuffer) : Except Escape Framebuffer := do
  let screen ← activate screen
  room screen.size
  .ok screen.clear

def setColors (foreground background : Int) (screen : Framebuffer) :
    Except Escape Framebuffer := do
  let screen ← activate screen
  .ok (screen.setColors foreground background)

def setCanvas (width height : Int) (screen : Framebuffer) : Except Escape Framebuffer := do
  room (screen.setCanvas width height).size
  .ok (screen.setCanvas width height)

/-- Sets the character and the colors of one cell. -/
def plot (screen : Framebuffer) (dot : Dot) : Except Escape Framebuffer :=
  if screen.isInside dot then do
    let rows := (screen.surface.map Surface.rows).getD #[]
    let row ← element "list" rows dot.y.toNat
    let _ ← byte (if dot.char = 0 then 32 else dot.char)
    let _ ← element "bytearray" row dot.x.toNat
    let _ ← byte (screen.foreground.val + 16 * screen.background.val)
    .ok (screen.plot dot)
  else .ok screen

def draw (dots : List Dot) (screen : Framebuffer) : Except Escape Framebuffer := do
  let screen ← activate screen
  dots.foldlM plot screen

/-! ## Services -/

variable {κ φ τ : Type}

section Terminal

variable [Terminal κ]

def write (world : World κ φ τ) (data : List UInt8) : Except FaultCause Unit × World κ φ τ :=
  let reply := Terminal.write data world.host.console
  (match reply.1 with
    | .ok _ => .ok ()
    | .error error => .error (.consoleWrite error),
    { world with host := { world.host with console := reply.2 } })

def read (world : World κ φ τ) : Except FaultCause (Option UInt8) × World κ φ τ :=
  let reply := Terminal.readByte world.host.console
  (match reply.1 with
    | .ok byte => .ok byte
    | .error error => .error (.consoleRead error),
    { world with host := { world.host with console := reply.2 } })

def say (world : World κ φ τ) (data : List UInt8) : ServiceResult × World κ φ τ :=
  Service.ofAnswer (write world data)

def readLine (buffer limit : Int) :
    Nat → Nat → World κ φ τ → Except Escape (Except FaultCause Nat × World κ φ τ)
  | 0, _, _ => .error .endless
  | rounds + 1, length, world =>
    if (length : Int) < limit - 1 then
      match (read world).1 with
      | .error cause => .ok (.error cause, (read world).2)
      | .ok none => .ok (.ok length, (read world).2)
      | .ok (some byte) =>
        if Service.isLineEnd byte then
          let echoed := write (read world).2 [10]
          .ok (echoed.1.map fun _ ↦ length, echoed.2)
        else if Service.isErase byte then
          if length = 0 then readLine buffer limit rounds 0 (read world).2
          else
            let echoed := write (read world).2 Service.eraseEcho
            match echoed.1 with
            | .error cause => .ok (.error cause, echoed.2)
            | .ok _ => readLine buffer limit rounds (length - 1) echoed.2
        else
          let echoed := write (read world).2 [byte]
          match echoed.1 with
          | .error cause => .ok (.error cause, echoed.2)
          | .ok _ =>
            readLine buffer limit rounds (length + 1) (echoed.2.write (buffer + length) [byte])
    else .ok (.ok length, world)

def inputLine (rounds : Nat) (config : Config) (argument : Service.Arguments)
    (world : World κ φ τ) : Except Escape (ServiceResult × World κ φ τ) := do
  let buffer := argument 0
  let requested := if argument 1 = 0 then config.lineDefault else argument 1
  let outcome ← readLine buffer (min requested config.lineLimit) rounds 0 world
  match outcome.1 with
  | .error cause => .ok (.fault cause, outcome.2)
  | .ok length => .ok (.done (some length), outcome.2.write (buffer + length) [0])

end Terminal

def name (rounds : Nat) (config : Config) (world : World κ φ τ) (address : Int) :
    Except Escape String := do
  let bytes ← string world.memory rounds (some config.nameLimit.toNat) address
  .ok (Text.ofBytes bytes)

def onScreen (world : World κ φ τ) (change : Framebuffer → Except Escape Framebuffer) :
    Except Escape (ServiceResult × World κ φ τ) := do
  let screen ← change world.screen
  .ok (.done none, { world with screen })

def copyBytes (argument : Service.Arguments) (world : World κ φ τ) :
    Except Escape (World κ φ τ) :=
  let target := argument 0
  let source := argument 1
  let count := min (world.memory.span target (argument 2)) (world.memory.span source (argument 2))
  if count = 0 then .ok world
  else do
    let fetched := world.read source count
    let data ← present .missingData fetched.1
    .ok (fetched.2.write target data)

def fillBytes (argument : Service.Arguments) (world : World κ φ τ) :
    Except Escape (World κ φ τ) :=
  let count := world.memory.span (argument 0) (argument 2)
  if count = 0 then .ok world
  else do
    let value ← byte (argument 1 % 256)
    .ok (world.write (argument 0) (List.replicate count value))

def randomBelow (seed limit : Int) : Except Escape Int :=
  let limit := limit % 2 ^ 32
  modulo (seed / 2 ^ 16) (if limit = 0 then 1 else limit)

def run [Terminal κ] [FileStore φ] [Clock τ] (rounds : Nat) (config : Config)
    (service : Service) (argument : Service.Arguments) (world : World κ φ τ) :
    Except Escape (ServiceResult × World κ φ τ) :=
  match service with
  | .printString => do
    let text ← string world.memory rounds none (argument 0)
    .ok (say world text)
  | .printChar => do
    let char ← byte (argument 0 % 256)
    .ok (say world [char])
  | .printNumber => do
    print (Service.signed (argument 0))
    .ok (say world (Text.toBytes (toString (Service.signed (argument 0)))))
  | .inputChar =>
    match read world with
    | (.ok byte, world) => .ok (.done (some ((byte.map UInt8.toNat).getD 0)), world)
    | (.error cause, world) => .ok (.fault cause, world)
  | .inputLine => inputLine rounds config argument world
  | .printHex =>
    .ok (say world (Text.toBytes ("0x" ++ Text.hexLower 0 (argument 0 % 2 ^ 32))))
  | .clearScreen => onScreen world clear
  | .setColors => onScreen world (setColors (argument 0) (argument 1))
  | .plot =>
    onScreen world (draw [⟨Service.byteArgument argument 0, Service.byteArgument argument 1,
      Service.byteArgument argument 2⟩])
  | .line => onScreen world (draw (Service.drawLine argument))
  | .box => onScreen world (draw (Service.drawBox argument))
  | .resetColors => onScreen world fun screen ↦ .ok screen.resetColors
  | .canvas => onScreen world (setCanvas (argument 0) (argument 1))
  | .fileCreate => do
    let name ← name rounds config world (argument 0)
    .ok (Service.askFiles name (FileStore.create name) world)
  | .fileWrite => do
    let _ ← name rounds config world (argument 0)
    .ok (Service.runFileWrite config argument world)
  | .fileRead => do
    let _ ← name rounds config world (argument 0)
    .ok (Service.runFileRead config argument world)
  | .fileDelete => do
    let name ← name rounds config world (argument 0)
    .ok (Service.askFiles name (FileStore.delete name) world)
  | .fileCopy => do
    let _ ← name rounds config world (argument 0)
    let _ ← name rounds config world (argument 1)
    .ok (Service.runTransfer config false argument world)
  | .fileMove => do
    let _ ← name rounds config world (argument 0)
    let _ ← name rounds config world (argument 1)
    .ok (Service.runTransfer config true argument world)
  | .fileExists => do
    let name ← name rounds config world (argument 0)
    .ok (Service.askFiles name (FileStore.contains name) world)
  | .stringLength => do
    let text ← string world.memory rounds none (argument 0)
    .ok (.done (some text.length), world)
  | .copyMemory => do
    let world ← copyBytes argument world
    .ok (.done none, world)
  | .fillMemory => do
    let world ← fillBytes argument world
    .ok (.done none, world)
  | .absolute => .ok (.done (some (Service.signed (argument 0)).natAbs), world)
  | .sleep =>
    let clock := Clock.sleep (argument 0 % 2 ^ 16) world.host.clock
    .ok (.done none, { world with host := { world.host with clock } })
  | .random => do
    let seed := Service.nextSeed world.seed
    let value ← randomBelow seed (argument 0)
    .ok (.done (some value), { world with seed })
  | .uptime => .ok (.done (some (Clock.uptime world.host.clock)), world)
  | .halt => .ok (.halt, world)

def dispatch [Terminal κ] [FileStore φ] [Clock τ] (rounds : Nat) (config : Config) (number : Int)
    (argument : Service.Arguments) (world : World κ φ τ) :
    Except Escape (ServiceResult × World κ φ τ) :=
  match Service.ofNumber? number with
  | none => .ok (.fault (.unknownService number), world)
  | some service =>
    run rounds config service argument
      (world.note .debug "armlet.emulator.extended"
        ("extended opcode 0x" ++ Text.hexLower 0 number ++ " (" ++ service.name ++ ")"))

/-! ## Instructions -/

def serviceCall [Terminal κ] [FileStore φ] [Clock τ] (rounds : Nat) (number : BitVec 16)
    (machine : Machine κ φ τ) : Except Escape (Machine κ φ τ) := do
  let registers := machine.registers
  let argument : Service.Arguments := fun index ↦
    (registers.read (BitVec.ofNat 5 index)).toNat
  let answer ← dispatch rounds machine.config number.toNat argument machine.world
  let machine := { machine with world := answer.2 }
  match answer.1 with
  | .done none => .ok machine.proceed
  | .done (some value) => .ok (machine.write .w64 0 (BitVec.ofInt 64 value)).proceed
  | .halt => .ok machine.halt
  | .fault cause => .ok (machine.raise cause)

/-- The counts of a shift by an amount that is reduced first: to one side and to the other. -/
def rotation (width : Width) (amount : Nat) : List Int :=
  [amount % width.bits, width.bits - amount % width.bits]

/-- The numbers by which an instruction shifts, where they depend on its operands. -/
def shiftCounts (registers : Registers) : Instruction → List Int
  | .addSubRegister width _ _ _ amount _ _ _ => rotation width amount.toNat
  | .logical width _ _ _ amount _ _ _ => rotation width amount.toNat
  | .bitfield width _ rotate last _ _ =>
    if rotate ≤ last then [rotate.val, last.val - rotate.val + 1, last.val - rotate.val]
    else [last.val + 1, width.bits - rotate.val, width.bits - rotate.val + last.val]
  | .extract _ low _ _ _ => [low.val]
  | .twoSource width (.shift _) rm _ _ => rotation width (registers.readAt width rm).toNat
  | _ => []

def execute [Terminal κ] [FileStore φ] [Clock τ] (rounds : Nat) (instruction : Instruction)
    (machine : Machine κ φ τ) : Except Escape (Machine κ φ τ) :=
  match instruction with
  | .exception .svc number => serviceCall rounds number machine
  | _ => do
    shifts (shiftCounts machine.registers instruction)
    let _ := Console.silent κ
    .ok (machine.execute instruction)

def perform [Terminal κ] [FileStore φ] [Clock τ] (rounds : Nat) (word : Word)
    (machine : Machine κ φ τ) : Except Escape (Machine κ φ τ) :=
  match decode word with
  | .ok instruction => do
    let machine ← execute rounds instruction machine
    .ok machine.count
  | .error error => .ok (machine.raise (Machine.faultOfDecoding word error))

/-- A running machine that has reached its ceiling prints it. -/
def ceiling (machine : Machine κ φ τ) : Except Escape Unit :=
  if machine.isRunning && decide (machine.config.maxInstructions ≤ machine.executed) then
    print machine.config.maxInstructions
  else .ok ()

/-- Reads the word at an address inside the program. -/
def fetch (machine : Machine κ φ τ) : Except Escape (Except (Machine κ φ τ) Word) := do
  ceiling machine
  match machine.fetch with
  | .error stopped => .ok (.error stopped)
  | .ok _ => do
    let raw ← present .missingWord (machine.world.memory.readNat machine.registers.pc 4)
    .ok (.ok (BitVec.ofNat 32 raw))

end Attempt

namespace Machine

variable {κ φ τ : Type}

/-- One step by partial operations, in which no loop has more than a number of rounds. -/
def attempt [Terminal κ] [FileStore φ] [Clock τ] (rounds : Nat) (machine : Machine κ φ τ) :
    Except Escape (Bool × Machine κ φ τ) := do
  match ← Attempt.fetch machine with
  | .error stopped => .ok (false, stopped)
  | .ok word => do
    let next ← Attempt.perform rounds word machine
    .ok (next.isRunning, next)

/--
Attempts steps until one does not leave the machine running, but no more than a number of them.
Where an attempt escapes, the machine is left as it was before it.
-/
def attemptSteps [Terminal κ] [FileStore φ] [Clock τ] (rounds : Nat) :
    Nat → Machine κ φ τ → Except Escape Unit × Machine κ φ τ
  | 0, machine => (.error .endless, machine)
  | calls + 1, machine =>
    match machine.attempt rounds with
    | .error escape => (.error escape, machine)
    | .ok (true, next) => attemptSteps rounds calls next
    | .ok (false, last) => (.ok (), last)

/-- A run of attempted steps, which prints the count of instructions at its end. -/
def attemptRun [Terminal κ] [FileStore φ] [Clock τ] (rounds calls : Nat)
    (machine : Machine κ φ τ) : Except Escape Unit × Machine κ φ τ :=
  let ended := attemptSteps rounds calls machine
  match (do ended.1; Attempt.print ended.2.executed) with
  | .error escape => (.error escape, ended.2)
  | .ok _ => (.ok (), ended.2.noteEnd)

/-- Rounds enough for every loop of a step: strings end with memory, and lines with the input. -/
def rounds [Console κ] (machine : Machine κ φ τ) : Nat :=
  2 * machine.world.memory.size + machine.world.inputLeft + 1

end Machine

end MiniA64
