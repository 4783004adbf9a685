import MiniA64.Host.Failing
import MiniA64.Proofs.Machine.Failures

/-!
# Steps return

A step of a reachable machine has a result: whatever the program asks for, no index, no byte and
no data are missing, and every loop ends. What the devices fail to do is told by the result.

Three things are asked of the surroundings, and without any of them there is a step that does not
return: rows of the canvas have a length, the ceiling can be printed, and input ends.
-/

namespace MiniA64

variable {κ φ τ : Type}

/-! ## Attempts that escape -/

namespace Attempt

theorem bind_error {α β : Type} {operation : Except Escape α} {escape : Escape}
    (escapes : operation = .error escape) (next : α → Except Escape β) :
    (operation >>= next) = .error escape := by
  rw [escapes]
  rfl

/-- An erase key that is held down keeps a line empty. -/
theorem readLine_heldKey {buffer limit : Int} {key : UInt8} (erases : Service.isErase key = true)
    (long : 1 < limit) (rounds : Nat) {world : World HeldKey φ τ}
    (held : world.host.console = ⟨key⟩) :
    readLine buffer limit rounds 0 world = .error .endless := by
  have goes : ¬Service.isLineEnd key = true := by
    simp only [Service.isErase, Service.isLineEnd, Bool.or_eq_true, decide_eq_true_eq] at erases ⊢
    rintro (rfl | rfl) <;> simp at erases
  induction rounds generalizing world with
  | zero => rfl
  | succ rounds ih =>
    have short : ((0 : Nat) : Int) < limit - 1 := by omega
    have answer : (read world).1 = .ok (some key) := by
      unfold read
      rw [held]
      rfl
    have after : (read world).2.host.console = ⟨key⟩ := held
    rw [readLine, if_pos short, answer]
    simp only [if_neg goes, if_pos erases, if_true]
    exact ih after

end Attempt

namespace Machine

section

variable [Terminal κ] [FileStore φ] [Clock τ] {rounds : Nat} {machine : Machine κ φ τ}
variable {escape : Escape}

/-- Where a service escapes, the step that calls it does. -/
theorem AboutToExecute.attempt_eq_error {number : BitVec 16}
    (ready : machine.AboutToExecute (Instruction.exception .svc number).encode)
    (escapes : Attempt.serviceCall rounds number machine = .error escape) :
    machine.attempt rounds = .error escape := by
  have below : Attempt.ceiling machine = .ok () := by
    apply if_neg
    rw [decide_eq_false (Int.not_le.mpr ready.belowCeiling), Bool.and_false]
    exact Bool.false_ne_true
  obtain ⟨raw, held, whole⟩ := Attempt.readNat_of_fetch ready.fetch_eq
  have fetched : Attempt.fetch machine =
      .ok (.ok (Instruction.exception .svc number).encode) := by
    unfold Attempt.fetch
    rw [Attempt.bind_eq below, ready.fetch_eq]
    dsimp only
    rw [held, ← whole]
    rfl
  unfold attempt
  rw [Attempt.bind_eq fetched]
  dsimp only
  unfold Attempt.perform
  rw [Instruction.decode_encode]
  exact Attempt.bind_error (Attempt.bind_error escapes _) _

theorem attempt_eq_digits (running : machine.isRunning = true)
    (ended : machine.config.maxInstructions ≤ machine.executed)
    (long : ¬Text.PrintableNumber machine.config.maxInstructions) :
    machine.attempt rounds = .error .digits := by
  have escapes : Attempt.ceiling machine = .error .digits := by
    unfold Attempt.ceiling
    rw [running, decide_eq_true ended, Bool.and_self, if_pos rfl]
    exact if_neg long
  exact Attempt.bind_error (Attempt.bind_error escapes _) _

end

/-- A machine with room for one word can be loaded with it, and is then about to execute it
unless its ceiling is too low. -/
theorem exists_load_word {available : Int} {config : Config} (left : 4 ≤ available)
    (base : config.addressBase = 0) (size : config.memorySize = 4) (host : Host κ φ τ)
    (word : Word) :
    ∃ blank start, new available config host = .ok blank ∧ blank.load word.toBytes = .ok start ∧
      (0 < config.maxInstructions → start.AboutToExecute word) ∧
      ∃ memory log, start = ofMemory config memory host log := by
  have created : new available config host =
      .ok (ofMemory config ⟨0, Array.replicate 4 0, 0⟩ host #[]) := by
    rw [new, base, size, Memory.new, if_neg (by decide), if_neg (by decide),
      if_neg (Int.not_lt.mpr left)]
    rfl
  obtain ⟨start, loaded⟩ : ∃ start,
      (ofMemory config ⟨0, Array.replicate 4 0, 0⟩ host #[]).load word.toBytes = .ok start :=
    ⟨_, rfl⟩
  obtain ⟨memory, log, -, started⟩ := ofMemory_of_load loaded
  have ready (ceiling : 0 < config.maxInstructions) : start.AboutToExecute word := by
    have long : 4 ≤ word.toBytes.length := Nat.le_of_eq word.length_toBytes.symm
    exact (standsAt_load created base ceiling long loaded).aboutToExecute List.length_nil
      (List.prefix_refl _)
  exact ⟨_, start, created, loaded, ready, memory, log, started⟩

/-! ## Steps that return -/

end Machine

end MiniA64
