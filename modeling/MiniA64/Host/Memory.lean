import MiniA64.Host.Basic

/-!
# Devices in memory

A console that serves input from a buffer and keeps its output, a file store that is a list of
named byte strings in order of creation, and a clock that only sleeping and the user advance.
-/

namespace MiniA64

structure BufferConsole where
  input : List UInt8
  output : Array UInt8
  deriving Inhabited

namespace BufferConsole

def ofInput (input : List UInt8) : BufferConsole := ⟨input, #[]⟩

def feed (data : List UInt8) (console : BufferConsole) : BufferConsole :=
  { console with input := console.input ++ data }

def clear (console : BufferConsole) : BufferConsole := { console with output := #[] }

def write (data : List UInt8) (console : BufferConsole) : BufferConsole :=
  { console with output := console.output ++ data }

def readByte (console : BufferConsole) : Option UInt8 × BufferConsole :=
  match console.input with
  | [] => (none, console)
  | byte :: rest => (some byte, { console with input := rest })

/-- Takes as many bytes as there are, up to a count. -/
def readBlock (count : Nat) (console : BufferConsole) : List UInt8 × BufferConsole :=
  (console.input.take count, { console with input := console.input.drop count })

instance : Console BufferConsole where
  write data console := (.ok (), console.write data)
  readByte console := (.ok console.readByte.1, console.readByte.2)
  remaining console := console.input.length
  remaining_write _ _ := Nat.le_refl _
  remaining_readByte console byte h := by
    rcases console with ⟨_ | ⟨first, rest⟩, output⟩
    · simp [BufferConsole.readByte] at h
    · simp [BufferConsole.readByte]

end BufferConsole

/-- Files in order of first creation; names are distinct. -/
structure MemoryStore where
  files : List (String × List UInt8)
  deriving Inhabited

namespace MemoryStore

def empty : MemoryStore := ⟨[]⟩

def read (name : String) (store : MemoryStore) : Option (List UInt8) := store.files.lookup name

def contains (name : String) (store : MemoryStore) : Bool :=
  store.files.any fun file ↦ file.1 = name

/-- Replaces the content of a file in place, or adds the file at the end. -/
def write (name : String) (data : List UInt8) (store : MemoryStore) : MemoryStore :=
  if store.contains name then
    ⟨store.files.map fun file ↦ if file.1 = name then (name, data) else file⟩
  else ⟨store.files ++ [(name, data)]⟩

def create (name : String) (store : MemoryStore) : Bool × MemoryStore :=
  if store.contains name then (false, store) else (true, store.write name [])

def delete (name : String) (store : MemoryStore) : Bool × MemoryStore :=
  (store.contains name, ⟨store.files.filter fun file ↦ file.1 ≠ name⟩)

def ofList (files : List (String × List UInt8)) : MemoryStore :=
  files.foldl (fun store file ↦ store.write file.1 file.2) empty

instance : FileStore MemoryStore where
  create name store := (.ok (store.create name).1, (store.create name).2)
  write name data store := (.ok (), store.write name data)
  read name store := (.ok (store.read name), store)
  delete name store := (.ok (store.delete name).1, (store.delete name).2)
  contains name store := (.ok (store.contains name), store)

end MemoryStore

structure ManualClock where
  now : Int
  sleeps : List Int
  deriving Inhabited

namespace ManualClock

def startingAt (now : Int) : ManualClock := ⟨now, []⟩

def sleep (duration : Int) (clock : ManualClock) : ManualClock :=
  ⟨clock.now + duration, clock.sleeps ++ [duration]⟩

def advance (duration : Int) (clock : ManualClock) : ManualClock :=
  { clock with now := clock.now + duration }

instance : Clock ManualClock where
  sleep := ManualClock.sleep
  uptime := ManualClock.now

end ManualClock

end MiniA64
