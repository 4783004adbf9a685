import MiniA64.Host.Basic

/-!
# Devices that fail

A device wrapped with a plan of failures: a console that gives out after a number of successful
operations, and a file store in which some operations always fail. A failed operation leaves the
wrapped device as it was.
-/

namespace MiniA64

/-- The operations still granted; none means no limit. -/
structure FailingConsole (κ : Type) where
  console : κ
  writesLeft : Option Nat
  readsLeft : Option Nat

namespace FailingConsole

variable {κ : Type} [Console κ]

def terminalGone : DeviceError := .failed "terminal gone"

def write (data : List UInt8) (device : FailingConsole κ) : Reply (FailingConsole κ) Unit :=
  if device.writesLeft = some 0 then (.error terminalGone, device)
  else
    ((Console.write data device.console).1,
      { device with
        console := (Console.write data device.console).2
        writesLeft := device.writesLeft.map (· - 1) })

def readByte (device : FailingConsole κ) : Reply (FailingConsole κ) (Option UInt8) :=
  if device.readsLeft = some 0 then (.error terminalGone, device)
  else
    ((Console.readByte device.console).1,
      { device with
        console := (Console.readByte device.console).2
        readsLeft := device.readsLeft.map (· - 1) })

instance : Console (FailingConsole κ) where
  write := write
  readByte := readByte
  remaining device := Console.remaining device.console
  remaining_write data device := by
    unfold write
    split
    · exact Nat.le_refl _
    · exact Console.remaining_write data device.console
  remaining_readByte device byte h := by
    unfold readByte at h ⊢
    split at h
    · cases h
    · rename_i granted
      simp only [granted]
      exact Console.remaining_readByte device.console byte h

end FailingConsole

inductive FileOperation
  | create
  | write
  | read
  | delete
  | contains
  deriving DecidableEq, Repr

structure FailingStore (φ : Type) where
  store : φ
  failing : List FileOperation

namespace FailingStore

variable {φ : Type} [FileStore φ]

def diskFull : DeviceError := .failed "disk full"

def attempt {α : Type} (operation : FileOperation) (action : φ → Reply φ α)
    (device : FailingStore φ) : Reply (FailingStore φ) α :=
  if device.failing.contains operation then (.error diskFull, device)
  else ((action device.store).1, { device with store := (action device.store).2 })

instance : FileStore (FailingStore φ) where
  create name := attempt .create (FileStore.create name)
  write name data := attempt .write (FileStore.write name data)
  read name := attempt .read (FileStore.read name)
  delete name := attempt .delete (FileStore.delete name)
  contains name := attempt .contains (FileStore.contains name)

end FailingStore

end MiniA64
