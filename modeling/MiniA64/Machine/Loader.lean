import MiniA64.Machine.Basic

/-!
# Loading in order

Loading a program as acts that follow one another on one machine. Whether the program fits is looked
at first. Memory is then cleared and filled in place, the framebuffer and the random numbers begin
anew, and the processor is reset last. An error ends the loading with all that has been done before
it.
-/

namespace MiniA64

/-- What changes a machine and may end with an error, which leaves what has been changed. -/
abbrev Load (κ φ τ : Type) := ExceptT MemoryError (StateM (Machine κ φ τ))

namespace Loader

variable {κ φ τ : Type}

def changeWorld (change : World κ φ τ → World κ φ τ) : Load κ φ τ Unit :=
  modify fun machine ↦ { machine with world := change machine.world }

def changeMemory (change : Memory → Memory) : Load κ φ τ Unit :=
  changeWorld fun world ↦ { world with memory := change world.memory }

def demandRoom (code : List UInt8) : Load κ φ τ Unit := do
  let size := (← get).world.memory.size
  if size < code.length then throw (.programTooLarge code.length size)

def clearMemory : Load κ φ τ Unit :=
  changeMemory fun memory ↦ { memory with bytes := Array.replicate memory.size 0 }

/-- Copies a program over what memory holds at offset zero. -/
def copyProgram (code : List UInt8) : Load κ φ τ Unit :=
  changeMemory fun memory ↦
    { memory with bytes := Memory.putBytes memory.bytes 0 code, programSize := code.length }

def fillMemory (code : List UInt8) : Load κ φ τ Unit := do
  demandRoom code
  clearMemory
  copyProgram code
  changeWorld (·.note .debug "armlet.emulator.memory"
    ("loaded " ++ toString code.length ++ " bytes"))

/-- Begins with an invisible framebuffer and with the seed of the configuration. -/
def renewContext : Load κ φ τ Unit := do
  let config := (← get).config
  changeWorld fun world ↦
    { world with
      screen := Framebuffer.new config.defaultCanvas config.maxCanvas
      seed := config.seed }

def load (code : List UInt8) : Load κ φ τ Unit := do
  fillMemory code
  renewContext
  modify (·.reset)
  changeWorld (·.note .info "armlet.emulator.emulator"
    ("loaded program of " ++ toString code.length ++ " bytes"))

end Loader

/-- The answer of loading a program, with its acts in order, and what becomes of the machine. -/
def Machine.loadInOrder {κ φ τ : Type} (code : List UInt8) (machine : Machine κ φ τ) :
    Except MemoryError Unit × Machine κ φ τ :=
  (ExceptT.run (Loader.load code)).run machine

end MiniA64
