import MiniA64.Proofs.Machine.Accesses
import MiniA64.Proofs.Machine.Screens

/-!
# What services leave as it was

A write that is accepted replaces a part of the array by as many bytes. A service works through
such accesses, the console and the files, and these leave the window of memory, the framebuffer and
the state of the random numbers alone. The services that draw replace the framebuffer, the random
one draws the next state, and neither of them does anything else.
-/

namespace MiniA64

variable {κ φ τ : Type}

/-! ## Memory -/

namespace Memory

/-- Replaces what lies between two offsets, whatever its length and that of the data. -/
def splice (bytes : List UInt8) (start stop : Nat) (data : List UInt8) : List UInt8 :=
  bytes.take start ++ data ++ bytes.drop (max start stop)

theorem toList_putBytes {bytes : Array UInt8} {offset : Nat} {data : List UInt8}
    (inside : offset + data.length ≤ bytes.size) :
    (putBytes bytes offset data).toList =
      splice bytes.toList offset (offset + data.length) data := by
  have start : (bytes.toList.take offset).length = offset := by
    rw [List.length_take, Array.length_toList]
    omega
  apply List.ext_getElem?
  intro index
  rw [Array.getElem?_toList, getElem?_putBytes _ _ _ inside, splice, List.append_assoc]
  by_cases before : index < offset
  · rw [if_neg (by omega), List.getElem?_append_left (by rw [start]; exact before),
      List.getElem?_take_of_lt before, Array.getElem?_toList]
  · rw [List.getElem?_append_right (by omega), start]
    by_cases within : index < offset + data.length
    · rw [if_pos (by omega), List.getElem?_append_left (by omega)]
    · rw [if_neg (by omega), List.getElem?_append_right (by omega), List.getElem?_drop,
        Array.getElem?_toList]
      congr 1
      omega

theorem length_splice {bytes : List UInt8} {start : Nat} {data : List UInt8}
    (inside : start + data.length ≤ bytes.length) :
    (splice bytes start (start + data.length) data).length = bytes.length := by
  simp only [splice, List.length_append, List.length_take, List.length_drop]
  omega

/-- The memory has the size and the program size that another one has. -/
structure SameShape (before after : Memory) : Prop where
  size : after.size = before.size
  programSize : after.programSize = before.programSize

/-- The memory has the base that the other one has as well. -/
structure SameWindow (before after : Memory) : Prop extends before.SameShape after where
  base : after.base = before.base

theorem SameWindow.refl (memory : Memory) : memory.SameWindow memory := ⟨⟨rfl, rfl⟩, rfl⟩

theorem SameWindow.trans {first second third : Memory} (before : first.SameWindow second)
    (after : second.SameWindow third) : first.SameWindow third :=
  ⟨⟨after.size.trans before.size, after.programSize.trans before.programSize⟩,
    after.base.trans before.base⟩

/-- What the translation accepts lies inside the array, so a write leaves its size. -/
theorem sameWindow_put {memory : Memory} {address : Int} {offset : Nat} {data : List UInt8}
    (accepted : memory.translate address data.length = some offset) :
    memory.SameWindow (memory.put offset data) := by
  have inside : offset + data.length ≤ memory.bytes.size := end_le_of_translate accepted
  refine ⟨⟨?_, rfl⟩, rfl⟩
  calc (memory.put offset data).size
      = (putBytes memory.bytes offset data).toList.length := Array.length_toList.symm
    _ = memory.bytes.toList.length := by
        rw [toList_putBytes inside]
        exact length_splice (by rw [Array.length_toList]; exact inside)
    _ = memory.size := Array.length_toList

end Memory

/-! ## Accesses of the world -/

namespace World

/-- Bytes of memory, the host and the log may differ, all else is the same. -/
structure Accessed (before after : World κ φ τ) : Prop where
  memory : before.memory.SameWindow after.memory
  screen : after.screen = before.screen
  seed : after.seed = before.seed

namespace Accessed

theorem refl (world : World κ φ τ) : world.Accessed world := ⟨.refl _, rfl, rfl⟩

theorem trans {first second third : World κ φ τ} (before : first.Accessed second)
    (after : second.Accessed third) : first.Accessed third where
  memory := before.memory.trans after.memory
  screen := after.screen.trans before.screen
  seed := after.seed.trans before.seed

theorem note (world : World κ φ τ) (level : LogLevel) (source message : String) :
    world.Accessed (world.note level source message) := ⟨.refl _, rfl, rfl⟩

theorem read (world : World κ φ τ) (address length : Int) :
    world.Accessed (world.read address length).2 := by
  unfold World.read
  split
  · exact refl world
  · exact note world ..

theorem write (world : World κ φ τ) (address : Int) (data : List UInt8) :
    world.Accessed (world.write address data) := by
  unfold World.write
  split
  · rename_i offset accepted
    exact ⟨Memory.sameWindow_put accepted, rfl, rfl⟩
  · exact note world ..

theorem print [Console κ] (world : World κ φ τ) (data : List UInt8) :
    world.Accessed (world.print data).2 := ⟨.refl _, rfl, rfl⟩

theorem input [Console κ] (world : World κ φ τ) : world.Accessed world.input.2 :=
  ⟨.refl _, rfl, rfl⟩

theorem onFiles (world : World κ φ τ) (operation : φ → Reply φ Int) :
    world.Accessed (world.onFiles operation).2 := by
  unfold World.onFiles
  dsimp only
  split <;> exact ⟨.refl _, rfl, rfl⟩

end Accessed

theorem memory_onFiles (world : World κ φ τ) (operation : φ → Reply φ Int) :
    (world.onFiles operation).2.memory = world.memory := by
  unfold onFiles
  dsimp only
  split <;> rfl

end World

/-! ## Services -/

namespace Service

open World (Accessed)

variable (config : Config) (argument : Arguments) (world : World κ φ τ)

/-- The induction follows the characters: each is read, echoed and perhaps stored. -/
theorem accessed_readLine [Console κ] (buffer limit : Int) (length : Nat) :
    world.Accessed (readLine buffer limit length world).2 := by
  fun_induction readLine buffer limit length world with
  | case4 world byte answer goes erases short ih => exact (Accessed.input world).trans ih
  | case6 length world short byte answer goes erases some _ echoed ih =>
    exact ((Accessed.input world).trans (.print ..)).trans ih
  | case8 length world short byte answer goes stays _ echoed ih =>
    have echo := (Accessed.input world).trans (.print _ [byte])
    exact (echo.trans (.write ..)).trans ih
  | _ => exact ⟨.refl _, rfl, rfl⟩

theorem accessed_runInputLine [Console κ] :
    world.Accessed (runInputLine config argument world).2 := by
  have line (limit : Int) := accessed_readLine world (argument 0) limit 0
  unfold runInputLine
  dsimp only
  split
  · exact line _
  · exact (line _).trans (.write ..)

theorem accessed_runFileWrite [FileStore φ] :
    world.Accessed (runFileWrite config argument world).2 := by
  refine Accessed.trans ?_ (.onFiles ..)
  split
  · exact .refl world
  · exact .read ..

theorem accessed_runFileRead [FileStore φ] :
    world.Accessed (runFileRead config argument world).2 := by
  unfold runFileRead
  dsimp only
  split
  · exact .refl world
  split
  · exact (Accessed.onFiles ..).trans (.write ..)
  · exact .onFiles ..

theorem accessed_copyBytes : world.Accessed (copyBytes argument world) := by
  unfold copyBytes
  dsimp only
  split
  · exact .refl world
  split
  · exact (Accessed.read ..).trans (.write ..)
  · exact .read ..

theorem accessed_fillBytes : world.Accessed (fillBytes argument world) := by
  unfold fillBytes
  dsimp only
  split
  · exact .refl world
  · exact .write ..

/-- What a service can do to the world. -/
theorem run_cases [Console κ] [FileStore φ] [Clock τ] (service : Service) :
    world.Accessed (run config service argument world).2 ∨
      (service = random ∧
        (run config service argument world).2 = { world with seed := nextSeed world.seed }) ∨
      ∃ screen, (world.screen.Sound → screen.Sound) ∧
        (run config service argument world).2 = { world with screen } := by
  have draws {change : Framebuffer → Framebuffer}
      (sound : world.screen.Sound → (change world.screen).Sound) :
      ∃ screen, (world.screen.Sound → screen.Sound) ∧
        (onScreen world change).2 = { world with screen } := ⟨_, sound, rfl⟩
  cases service with
  | clearScreen => exact .inr (.inr (draws fun sound ↦ sound.activate.clear))
  | setColors => exact .inr (.inr (draws fun sound ↦ sound.activate.setColors ..))
  | plot => exact .inr (.inr (draws fun sound ↦ sound.activate.plot _))
  | line | box => exact .inr (.inr (draws fun sound ↦ sound.activate.draw _))
  | resetColors => exact .inr (.inr (draws fun sound ↦ sound.resetColors))
  | canvas => exact .inr (.inr (draws fun sound ↦ sound.setCanvas ..))
  | random => exact .inr (.inl ⟨rfl, rfl⟩)
  | inputChar =>
    have kept := Accessed.input world
    refine .inl ?_
    unfold run
    dsimp only
    split <;> rename_i reply <;> rw [reply] at kept <;> exact kept
  | inputLine => exact .inl (accessed_runInputLine ..)
  | fileCreate | fileDelete | fileExists | fileCopy | fileMove => exact .inl (.onFiles world _)
  | fileWrite => exact .inl (accessed_runFileWrite ..)
  | fileRead => exact .inl (accessed_runFileRead ..)
  | copyMemory => exact .inl (accessed_copyBytes ..)
  | fillMemory => exact .inl (accessed_fillBytes ..)
  | _ => exact .inl ⟨.refl _, rfl, rfl⟩

end Service

end MiniA64
