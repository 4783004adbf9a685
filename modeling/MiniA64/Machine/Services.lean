import MiniA64.Isa.Service
import MiniA64.Machine.World
import MiniA64.Text.Characters

/-!
# Carrying out host services

A service takes its arguments from the first registers and may return a value. Pointers that
are not mapped read as empty and writes through them are dropped. A failing file store makes a
service return zero; a failing console is a fault.
-/

namespace MiniA64

inductive ServiceResult
  /-- The service is done, with a value for the first register if it has one. -/
  | done (value : Option Int)
  | halt
  | fault (cause : FaultCause)
  deriving DecidableEq, Repr

namespace Service

variable {κ φ τ : Type}

/-- The arguments of a service, by register number. -/
abbrev Arguments := Nat → Int

def readName (config : Config) (world : World κ φ τ) (address : Int) : String :=
  Text.ofBytes (world.memory.string address (some config.nameLimit))

def ofAnswer (reply : Except FaultCause Unit × World κ φ τ) : ServiceResult × World κ φ τ :=
  (match reply.1 with
    | .ok _ => .done none
    | .error cause => .fault cause,
    reply.2)

def say [Console κ] (world : World κ φ τ) (data : List UInt8) : ServiceResult × World κ φ τ :=
  ofAnswer (world.print data)

def isLineEnd (byte : UInt8) : Bool := byte = 13 || byte = 10

def isErase (byte : UInt8) : Bool := byte = 8 || byte = 127

/-- Backspace, blank, backspace: removes the last character from the screen. -/
def eraseEcho : List UInt8 := [8, 32, 8]

/--
Reads and echoes characters until the line ends, the input ends or the buffer has one place
left, and returns the length of the edited line.
-/
def readLine [Console κ] (buffer limit : Int) (length : Nat) (world : World κ φ τ) :
    Except FaultCause Nat × World κ φ τ :=
  if (length : Int) < limit - 1 then
    match _answer : world.input.1 with
    | .error cause => (.error cause, world.input.2)
    | .ok none => (.ok length, world.input.2)
    | .ok (some byte) =>
      if isLineEnd byte then
        let echoed := world.input.2.print [10]
        (echoed.1.map fun _ ↦ length, echoed.2)
      else if isErase byte then
        if length = 0 then readLine buffer limit 0 world.input.2
        else
          match (world.input.2.print eraseEcho).1 with
          | .error cause => (.error cause, (world.input.2.print eraseEcho).2)
          | .ok _ => readLine buffer limit (length - 1) (world.input.2.print eraseEcho).2
      else
        match (world.input.2.print [byte]).1 with
        | .error cause => (.error cause, (world.input.2.print [byte]).2)
        | .ok _ =>
          readLine buffer limit (length + 1)
            ((world.input.2.print [byte]).2.write (buffer + length) [byte])
  else (.ok length, world)
termination_by world.inputLeft
decreasing_by
  · exact world.inputLeft_input byte _answer
  · have shrinks := world.inputLeft_input byte _answer
    have echo := world.input.2.inputLeft_print eraseEcho
    omega
  · have shrinks := world.inputLeft_input byte _answer
    have echo := world.input.2.inputLeft_print [byte]
    rw [World.inputLeft_write]
    omega

/-- Reads a line into a buffer and ends it with a zero byte. -/
def runInputLine [Console κ] (config : Config) (argument : Arguments) (world : World κ φ τ) :
    ServiceResult × World κ φ τ :=
  let buffer := argument 0
  let requested := if argument 1 = 0 then config.lineDefault else argument 1
  let outcome := readLine buffer (min requested config.lineLimit) 0 world
  match outcome.1 with
  | .error cause => (.fault cause, outcome.2)
  | .ok length => (.done (some length), outcome.2.write (buffer + length) [0])

def onScreen (world : World κ φ τ) (change : Framebuffer → Framebuffer) :
    ServiceResult × World κ φ τ :=
  (.done none, { world with screen := change world.screen })

def byteArgument (argument : Arguments) (index : Nat) : Int := argument index % 256

def drawLine (argument : Arguments) : List Dot :=
  let char := byteArgument argument 4
  Drawing.line (byteArgument argument 0) (byteArgument argument 1) (byteArgument argument 2)
    (byteArgument argument 3) (if char = 0 then 42 else char)

def drawBox (argument : Arguments) : List Dot :=
  Drawing.box (byteArgument argument 0) (byteArgument argument 1) (byteArgument argument 2)
    (byteArgument argument 3)

def returning (answer : Int × World κ φ τ) : ServiceResult × World κ φ τ :=
  (.done (some answer.1), answer.2)

/-- A file operation that answers yes or no; no file has the empty name. -/
def askFiles (name : String) (question : φ → Reply φ Bool) (world : World κ φ τ) :
    ServiceResult × World κ φ τ :=
  returning (world.onFiles fun files ↦
    if name.isEmpty then (.ok 0, files)
    else
      let reply := question files
      (reply.1.map fun yes ↦ if yes then 1 else 0, reply.2))

def fileWriteFrom [FileStore φ] (name : String) (data : Option (List UInt8)) (length : Int)
    (files : φ) : Reply φ Int :=
  match data with
  | none => (.ok 0, files)
  | some data =>
    if name.isEmpty then (.ok 0, files)
    else
      let reply := FileStore.write name data files
      (reply.1.map fun _ ↦ length, reply.2)

def runFileWrite [FileStore φ] (config : Config) (argument : Arguments) (world : World κ φ τ) :
    ServiceResult × World κ φ τ :=
  let name := readName config world (argument 0)
  let length := argument 2
  let fetched := if length = 0 then (some [], world) else world.read (argument 1) length
  returning (fetched.2.onFiles (fileWriteFrom name fetched.1 length))

/-- The first bytes of a file; a negative count leaves off as many at the end. -/
def firstBytes (data : List UInt8) (count : Int) : List UInt8 :=
  data.take (Memory.sliceEnd data.length count)

def runFileRead [FileStore φ] (config : Config) (argument : Arguments) (world : World κ φ τ) :
    ServiceResult × World κ φ τ :=
  let name := readName config world (argument 0)
  let buffer := argument 1
  let limit := argument 2
  if name.isEmpty || (world.memory.translate buffer limit).isNone then (.done (some 0), world)
  else
    let reply := FileStore.read name world.host.files
    let answered := world.onFiles fun _ ↦ (reply.1.map fun _ ↦ 0, reply.2)
    match reply.1 with
    | .ok (some data) =>
      let chunk := firstBytes data limit
      (.done (some chunk.length), answered.2.write buffer chunk)
    | _ => (.done (some 0), answered.2)

/-- Copies a file to a name that is not taken; a move then deletes the source. -/
def transferFile [FileStore φ] (removeSource : Bool) (source target : String) (files : φ) :
    Reply φ Int :=
  if source.isEmpty || target.isEmpty then (.ok 0, files)
  else
    match FileStore.read source files with
    | (.error error, files) => (.error error, files)
    | (.ok none, files) => (.ok 0, files)
    | (.ok (some data), files) =>
      match FileStore.create target files with
      | (.error error, files) => (.error error, files)
      | (.ok false, files) => (.ok 0, files)
      | (.ok true, files) =>
        match FileStore.write target data files with
        | (.error error, files) => (.error error, files)
        | (.ok _, files) =>
          if removeSource then
            let reply := FileStore.delete source files
            (reply.1.map fun _ ↦ 1, reply.2)
          else (.ok 1, files)

def runTransfer [FileStore φ] (config : Config) (removeSource : Bool) (argument : Arguments)
    (world : World κ φ τ) : ServiceResult × World κ φ τ :=
  returning (world.onFiles
    (transferFile removeSource (readName config world (argument 0))
      (readName config world (argument 1))))

/-- Copies as if through a buffer, as far as both ranges are mapped. -/
def copyBytes (argument : Arguments) (world : World κ φ τ) : World κ φ τ :=
  let target := argument 0
  let source := argument 1
  let count := min (world.memory.span target (argument 2)) (world.memory.span source (argument 2))
  if count = 0 then world
  else
    let fetched := world.read source count
    match fetched.1 with
    | some data => fetched.2.write target data
    | none => fetched.2

def fillBytes (argument : Arguments) (world : World κ φ τ) : World κ φ τ :=
  let count := world.memory.span (argument 0) (argument 2)
  if count = 0 then world
  else world.write (argument 0) (List.replicate count (UInt8.ofNat (argument 1 % 256).toNat))

/-- The next state of the random numbers, a linear congruence modulo 2^32. -/
def nextSeed (seed : Int) : Int := (seed * 1103515245 + 12345) % 2 ^ 32

/-- A number below the requested limit from the upper half of the state. -/
def randomBelow (seed limit : Int) : Int :=
  let limit := limit % 2 ^ 32
  seed / 2 ^ 16 % (if limit = 0 then 1 else limit)

/-- A register value as a signed 64-bit number. -/
def signed (value : Int) : Int := (BitVec.ofInt 64 value).toInt

def run [Console κ] [FileStore φ] [Clock τ] (config : Config) (service : Service)
    (argument : Arguments) (world : World κ φ τ) : ServiceResult × World κ φ τ :=
  match service with
  | printString => say world (world.memory.string (argument 0) none)
  | printChar => say world [UInt8.ofNat (argument 0 % 256).toNat]
  | printNumber => say world (Text.toBytes (toString (signed (argument 0))))
  | inputChar =>
    match world.input with
    | (.ok byte, world) => (.done (some ((byte.map UInt8.toNat).getD 0)), world)
    | (.error cause, world) => (.fault cause, world)
  | inputLine => runInputLine config argument world
  | printHex => say world (Text.toBytes ("0x" ++ Text.hexLower 0 (argument 0 % 2 ^ 32)))
  | clearScreen => onScreen world fun screen ↦ screen.activate.clear
  | setColors => onScreen world fun screen ↦ screen.activate.setColors (argument 0) (argument 1)
  | plot =>
    onScreen world fun screen ↦
      screen.activate.plot
        ⟨byteArgument argument 0, byteArgument argument 1, byteArgument argument 2⟩
  | line => onScreen world fun screen ↦ screen.activate.draw (drawLine argument)
  | box => onScreen world fun screen ↦ screen.activate.draw (drawBox argument)
  | resetColors => onScreen world Framebuffer.resetColors
  | canvas => onScreen world (Framebuffer.setCanvas (argument 0) (argument 1))
  | fileCreate =>
    let name := readName config world (argument 0)
    askFiles name (FileStore.create name) world
  | fileWrite => runFileWrite config argument world
  | fileRead => runFileRead config argument world
  | fileDelete =>
    let name := readName config world (argument 0)
    askFiles name (FileStore.delete name) world
  | fileCopy => runTransfer config false argument world
  | fileMove => runTransfer config true argument world
  | fileExists =>
    let name := readName config world (argument 0)
    askFiles name (FileStore.contains name) world
  | stringLength => (.done (some (world.memory.string (argument 0) none).length), world)
  | copyMemory => (.done none, copyBytes argument world)
  | fillMemory => (.done none, fillBytes argument world)
  | absolute => (.done (some (signed (argument 0)).natAbs), world)
  | sleep =>
    let clock := Clock.sleep (argument 0 % 2 ^ 16) world.host.clock
    (.done none, { world with host := { world.host with clock } })
  | random =>
    let seed := nextSeed world.seed
    (.done (some (randomBelow seed (argument 0))), { world with seed })
  | uptime => (.done (some (Clock.uptime world.host.clock)), world)
  | halt => (.halt, world)

/-- The service with a number, where any integer may be asked for. -/
def ofNumber? (number : Int) : Option Service :=
  all.find? fun service ↦ (service.id.toNat : Int) = number

/-- Runs the service with a number, and reports that it does. -/
def dispatch [Console κ] [FileStore φ] [Clock τ] (config : Config) (number : Int)
    (argument : Arguments) (world : World κ φ τ) : ServiceResult × World κ φ τ :=
  match ofNumber? number with
  | none => (.fault (.unknownService number), world)
  | some service =>
    run config service argument
      (world.note .debug "armlet.emulator.extended"
        ("extended opcode 0x" ++ Text.hexLower 0 number ++ " (" ++ service.name ++ ")"))

end Service

end MiniA64
