import MiniA64.Host.Memory
import MiniA64.Machine.Run
import MiniA64.Proofs.Bytes
import MiniA64.Proofs.Isa.Reading

/-!
# Steps on an encoded instruction

A machine is about to execute a word when it runs, is below its ceiling and stands at an aligned
address inside the program where the bytes of the word lie. One step on the word of an instruction
is then the execution of the instruction: fetching reads the bytes back to the word, and decoding
reads the word back to the instruction.
-/

namespace MiniA64

namespace Machine

variable {κ φ τ : Type}

/-- The machine runs, may execute one more instruction, and the word lies at its counter. -/
structure AboutToExecute (machine : Machine κ φ τ) (word : Word) : Prop where
  running : machine.status = .running
  belowCeiling : machine.executed < machine.config.maxInstructions
  aligned : machine.registers.pc % 4 = 0
  insideProgram : ∃ offset, machine.world.memory.translate machine.registers.pc 4 = some offset ∧
    offset < machine.world.memory.programSize
  holds : machine.world.memory.read machine.registers.pc 4 = some word.toBytes

/-- A machine that stops without executing a word has ended before, or faults, or halts. -/
theorem eq_of_fetch_error {machine stopped : Machine κ φ τ} (h : machine.fetch = .error stopped) :
    stopped = machine ∨ (∃ cause, stopped = machine.raise cause) ∨
      stopped = fetch.leave machine machine.registers.pc := by
  unfold fetch at h
  dsimp only at h
  split at h
  · exact .inl (Except.error.inj h).symm
  split at h
  · exact .inr (.inl ⟨_, (Except.error.inj h).symm⟩)
  split at h
  · exact .inr (.inl ⟨_, (Except.error.inj h).symm⟩)
  split at h
  · split at h
    · cases h
    · exact .inr (.inr (Except.error.inj h).symm)
  · exact .inr (.inr (Except.error.inj h).symm)

namespace AboutToExecute

variable {machine : Machine κ φ τ} {word : Word}

theorem fetch_eq (ready : machine.AboutToExecute word) : machine.fetch = .ok word := by
  obtain ⟨offset, translated, inside⟩ := ready.insideProgram
  have bytes : Memory.slice machine.world.memory.bytes offset (offset + 4) = word.toBytes := by
    have holds := ready.holds
    rw [Memory.read, translated] at holds
    exact Option.some.inj holds
  have running : machine.isRunning = true := by simp [isRunning, ready.running]
  have below : ¬machine.config.maxInstructions ≤ machine.executed := by
    have := ready.belowCeiling
    omega
  have aligned : ¬machine.registers.pc % 4 ≠ 0 := by simp [ready.aligned]
  simp only [fetch, running, Bool.not_true, Bool.false_eq_true, if_false, if_neg below,
    if_neg aligned, translated, if_pos inside, bytes, Word.littleEndian_toBytes,
    BitVec.ofNat_toNat, BitVec.setWidth_eq]

variable [Console κ] [FileStore φ] [Clock τ]

/-- One step executes the instruction whose word the machine is about to execute. -/
theorem step_eq {instruction : Instruction} (ready : machine.AboutToExecute instruction.encode)
    (runs : (machine.execute instruction).status = .running) :
    machine.step = (true, { machine.execute instruction with
      executed := (machine.execute instruction).executed + 1 }) := by
  have performed : machine.perform instruction.encode = (machine.execute instruction).count := by
    rw [perform, Instruction.decode_encode]
  have counted : (machine.execute instruction).count =
      { machine.execute instruction with
        executed := (machine.execute instruction).executed + 1 } := by
    rw [count, if_pos (by simp [isRunning, runs])]
  simp only [step, ready.fetch_eq, performed, counted, Prod.mk.injEq, and_true]
  simp [isRunning, runs]

end AboutToExecute

/-- A new machine whose program and whole memory is one word. -/
def ofWord (word : Word) : Machine BufferConsole MemoryStore ManualClock :=
  ofMemory {} ⟨0, word.toBytes.toArray, 4⟩
    ⟨.ofInput [], .empty, .startingAt 0⟩ #[]

theorem aboutToExecute_ofWord (word : Word) : (ofWord word).AboutToExecute word where
  running := rfl
  belowCeiling := show (0 : Int) < 10000 by decide
  aligned := rfl
  insideProgram := ⟨0, rfl, show 0 < 4 by decide⟩
  holds := rfl

end Machine

end MiniA64
