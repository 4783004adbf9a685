import MiniA64.Host.Basic

/-!
# Terminals

A terminal writes and reads as a console does, but nothing is promised about its input, which may
never end. Every console is a terminal.
-/

namespace MiniA64

class Terminal (κ : Type) where
  write : List UInt8 → κ → Reply κ Unit
  readByte : κ → Reply κ (Option UInt8)

instance {κ : Type} [Console κ] : Terminal κ := ⟨Console.write, Console.readByte⟩

/-- A console that has no input, for what needs a console but never asks it. -/
@[reducible]
def Console.silent (κ : Type) : Console κ where
  write _ console := (.ok (), console)
  readByte console := (.ok none, console)
  remaining _ := 0
  remaining_write _ _ := Nat.le_refl 0
  remaining_readByte _ _ h := nomatch h

/-- A terminal with one key that is held down. -/
structure HeldKey where
  key : UInt8

instance : Terminal HeldKey where
  write _ terminal := (.ok (), terminal)
  readByte terminal := (.ok (some terminal.key), terminal)

end MiniA64
