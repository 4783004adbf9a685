import MiniA64.Assembly.Selection
import MiniA64.Proofs.DataProcessing.Results
import MiniA64.Proofs.Machine.Stepping

/-!
# Constants that one move makes

A wide move that keeps nothing of the old value makes a number out of a window and an immediate: the
immediate at the place of the window, or the complement of that. The move of a constant is accepted
exactly for the constants of its width whose residue some wide move makes. It takes the direct form
where there is one, and the lowest window of the form; one step on its word leaves the residue in
the register.
-/

namespace MiniA64

/-- Whatever its register held, a wide move makes a number of the window and the immediate. -/
structure MoveWideOp.Makes (op : MoveWideOp) (width : Width) (window immediate made : Nat) :
    Prop where
  window_lt : window < width.bits / 16
  immediate_lt : immediate < 2 ^ 16
  made_eq : match op with
    | .movz => made = immediate * 2 ^ (16 * window)
    | .movn => made + immediate * 2 ^ (16 * window) = 2 ^ width.bits - 1
    | .movk => False

/-- Of the wide moves that make a number, the direct one in the lowest window comes first. -/
structure MoveWideOp.Prefers (op : MoveWideOp) (width : Width) (window immediate made : Nat) :
    Prop extends op.Makes width window immediate made where
  direct : ∀ other immediate, MoveWideOp.movz.Makes width other immediate made → op = .movz
  lowest : ∀ other immediate, op.Makes width other immediate made → window ≤ other

namespace WindowMove

open DataProcessing

variable {width : Width}

/-! ## Windows -/

theorem windowOf_place (immediate : BitVec 16) (window : Fin (width.bits / 16)) :
    windowOf (place immediate window : BitVec width.bits) window = immediate := by
  have inside := window_end_le window
  apply BitVec.eq_of_getLsbD_eq
  intro i hi
  simp [windowOf, place, hi, show 16 * window.val + i < width.bits by omega]

/-- A value is made directly in a window if it has no bits outside. -/
theorem exists_movz_iff {value : BitVec width.bits} {window : Nat} :
    (∃ immediate, MoveWideOp.movz.Makes width window immediate value.toNat) ↔
      ∃ below : window < width.bits / 16,
        place (windowOf value ⟨window, below⟩) ⟨window, below⟩ = value := by
  constructor
  · rintro ⟨immediate, below, fits, made⟩
    have placed : place (BitVec.ofNat 16 immediate) ⟨window, below⟩ = value := by
      apply BitVec.eq_of_toNat_eq
      rw [toNat_place, made, BitVec.toNat_ofNat, Nat.mod_eq_of_lt fits]
    refine ⟨below, ?_⟩
    rw [← placed, windowOf_place]
  · rintro ⟨below, placed⟩
    refine ⟨(windowOf value ⟨window, below⟩).toNat, below, BitVec.isLt _, ?_⟩
    have made := toNat_place ⟨window, below⟩ (windowOf value ⟨window, below⟩)
    rwa [placed] at made

/-- The complement of a number is made where the number is made directly. -/
theorem movn_iff_movz {value : BitVec width.bits} {window immediate : Nat} :
    MoveWideOp.movn.Makes width window immediate value.toNat ↔
      MoveWideOp.movz.Makes width window immediate (~~~value).toNat := by
  have small := value.isLt
  rw [BitVec.toNat_not]
  constructor
  · rintro ⟨below, fits, made⟩
    exact ⟨below, fits, by dsimp only at made ⊢; omega⟩
  · rintro ⟨below, fits, made⟩
    exact ⟨below, fits, by dsimp only at made ⊢; omega⟩

theorem window?_eq_some_iff {value : BitVec width.bits} {window : Fin (width.bits / 16)} :
    window? value = some window ↔ place (windowOf value window) window = value ∧
      ∀ lower < window, place (windowOf value lower) lower ≠ value := by
  rw [window?, List.find?_eq_some_iff_getElem]
  simp only [decide_eq_true_eq, List.getElem_finRange, List.length_finRange, Bool.not_eq_true',
    decide_eq_false_iff_not]
  refine and_congr_right fun _ ↦ ⟨?_, fun lowest ↦ ?_⟩
  · rintro ⟨index, bound, rfl, lowest⟩ lower below
    exact lowest lower below
  · exact ⟨window, window.isLt, rfl, fun index below ↦ lowest ⟨index, _⟩ below⟩

theorem window?_eq_none_iff {value : BitVec width.bits} :
    window? value = none ↔
      ∀ window immediate, ¬MoveWideOp.movz.Makes width window immediate value.toNat := by
  simp only [window?, List.find?_eq_none, List.mem_finRange, decide_eq_true_eq, forall_const]
  constructor
  · intro none window immediate makes
    obtain ⟨below, placed⟩ := exists_movz_iff.mp ⟨immediate, makes⟩
    exact none _ placed
  · intro none window placed
    obtain ⟨immediate, makes⟩ := exists_movz_iff.mpr ⟨window.isLt, placed⟩
    exact none _ _ makes

/-- The window that is found is the lowest in which the value is made directly. -/
theorem movz_of_window? {value : BitVec width.bits} {window : Fin (width.bits / 16)}
    (found : window? value = some window) :
    MoveWideOp.movz.Makes width window (windowOf value window).toNat value.toNat ∧
      ∀ other immediate, MoveWideOp.movz.Makes width other immediate value.toNat →
        window ≤ other := by
  obtain ⟨placed, lowest⟩ := window?_eq_some_iff.mp found
  have made := toNat_place window (windowOf value window)
  rw [placed] at made
  refine ⟨⟨window.isLt, BitVec.isLt _, made⟩, fun other immediate makes ↦ ?_⟩
  obtain ⟨below, otherPlaced⟩ := exists_movz_iff.mp ⟨immediate, makes⟩
  exact Nat.not_lt.mp fun lower ↦ lowest ⟨other, below⟩ lower otherPlaced

/-! ## Moves -/

theorem prefers_of_ofValue? {value : BitVec width.bits} {move : WindowMove width.bits}
    (found : ofValue? value = some move) :
    move.op.Prefers width move.window move.immediate.toNat value.toNat := by
  rw [ofValue?] at found
  split at found
  · rename_i window direct
    cases found
    obtain ⟨makes, lowest⟩ := movz_of_window? direct
    exact ⟨makes, fun _ _ _ ↦ rfl, lowest⟩
  · rename_i indirect
    obtain ⟨window, complemented, rfl⟩ := Option.map_eq_some_iff.mp found
    obtain ⟨makes, lowest⟩ := movz_of_window? complemented
    refine ⟨movn_iff_movz.mpr makes, fun other immediate direct ↦ ?_, fun other immediate made ↦ ?_⟩
    · exact absurd direct (window?_eq_none_iff.mp indirect other immediate)
    · exact lowest other immediate (movn_iff_movz.mp made)

theorem ofValue?_eq_none_iff {value : BitVec width.bits} :
    ofValue? value = none ↔
      ∀ (op : MoveWideOp) window immediate, ¬op.Makes width window immediate value.toNat := by
  rw [ofValue?]
  split
  · rename_i window direct
    simp only [reduceCtorEq, false_iff]
    exact fun none ↦ none .movz _ _ (movz_of_window? direct).1
  · rename_i indirect
    rw [Option.map_eq_none_iff, window?_eq_none_iff]
    constructor
    · intro none op window immediate makes
      cases op with
      | movz => exact window?_eq_none_iff.mp indirect window immediate makes
      | movn => exact none window immediate (movn_iff_movz.mp makes)
      | movk => exact makes.made_eq
    · intro none window immediate makes
      exact none .movn window immediate (movn_iff_movz.mpr makes)

end WindowMove

namespace Selection

variable {width : Width}

/-- A constant is accepted if it is one of the width whose residue a wide move makes. -/
theorem moveImmediate_eq_ok_iff {rd : Reg} {value : Int} {instruction : Instruction} :
    moveImmediate width rd value = .ok instruction ↔
      (-2 ^ (width.bits - 1) ≤ value ∧ value < 2 ^ width.bits) ∧
        ∃ move, WindowMove.ofValue? (BitVec.ofInt width.bits value) = some move ∧
          instruction = .moveWide width move.op move.window move.immediate rd := by
  rw [moveImmediate]
  split
  · rename_i outside
    constructor
    · intro accepted
      cases accepted
    · rintro ⟨inside, -⟩
      omega
  · rename_i inside
    cases chosen : WindowMove.ofValue? (BitVec.ofInt width.bits value) with
    | none => simp
    | some move =>
      simp only [Except.ok.injEq, Option.some.injEq, exists_eq_left', eq_comm]
      exact ⟨fun same ↦ ⟨by omega, same⟩, And.right⟩

end Selection

/-- What a write leaves in its register, with zeros above a narrow value. -/
theorem Registers.toNat_read_writeAt (registers : Registers) {width : Width} (rd : Reg)
    (value : BitVec width.bits) :
    ((registers.writeAt width rd value).read rd).toNat =
      if rd = Reg.special then 0 else value.toNat := by
  have small : value.toNat < 2 ^ 64 :=
    Nat.lt_of_lt_of_le value.isLt (by cases width <;> decide)
  by_cases special : rd = Reg.special
  · simp [read, special, Reg.special]
  · have general : rd.toNat < 31 := by
      have below := rd.isLt
      have other : rd.toNat ≠ 31 := fun same ↦ special (BitVec.eq_of_toNat_eq same)
      omega
    simp only [writeAt, write, read, general, dite_true, Vector.getElem_set_self, special, if_false]
    rw [BitVec.toNat_setWidth, Nat.mod_eq_of_lt small]

namespace Selection

variable {width : Width} {κ φ τ : Type} [Console κ] [FileStore φ] [Clock τ]

/-- One step on a move of a value leaves the value in a general register. -/
theorem read_step_moveWide {machine : Machine κ φ τ} {rd : Reg} (move : WindowMove width.bits)
    (ready : machine.AboutToExecute
      (Instruction.moveWide width move.op move.window move.immediate rd).encode) :
    machine.step.1 = true ∧ (machine.step.2.registers.read rd).toNat =
      if rd = Reg.special then 0 else move.value.toNat := by
  have executed : machine.execute (.moveWide width move.op move.window move.immediate rd) =
      (machine.write width rd move.value).proceed := by
    rw [← DataProcessing.moveWide_eq_value move (machine.registers.readAt width rd)]
    rfl
  have running : (machine.execute
      (.moveWide width move.op move.window move.immediate rd)).status = .running := ready.running
  rw [ready.step_eq running, executed]
  exact ⟨rfl, machine.registers.toNat_read_writeAt rd move.value⟩

/--
The move of a constant is accepted exactly for the constants of the width whose residue a wide move
makes. It is the preferred one of these moves, and a step on its word leaves the residue in the
register, unless that is the zero register.
-/
theorem moveImmediate_exact (width : Width) (rd : Reg) (value : Int) :
    ((∃ instruction, moveImmediate width rd value = .ok instruction) ↔
      (-2 ^ (width.bits - 1) ≤ value ∧ value < 2 ^ width.bits) ∧
        ∃ (op : MoveWideOp) (window immediate : Nat),
          op.Makes width window immediate (width.reduce value)) ∧
      ∀ instruction, moveImmediate width rd value = .ok instruction →
        (∃ op window immediate, instruction = .moveWide width op window immediate rd ∧
          op.Prefers width window immediate.toNat (width.reduce value)) ∧
        ∀ machine : Machine κ φ τ, machine.AboutToExecute instruction.encode →
          machine.step.1 = true ∧ (machine.step.2.registers.read rd).toNat =
            if rd = Reg.special then 0 else width.reduce value := by
  rw [← Width.toNat_ofInt]
  refine ⟨?_, fun instruction accepted ↦ ?_⟩
  · simp only [moveImmediate_eq_ok_iff]
    constructor
    · rintro ⟨instruction, inside, move, found, rfl⟩
      exact ⟨inside, _, _, _, (WindowMove.prefers_of_ofValue? found).toMakes⟩
    · rintro ⟨inside, op, window, immediate, makes⟩
      cases found : WindowMove.ofValue? (BitVec.ofInt width.bits value) with
      | none => exact absurd makes (WindowMove.ofValue?_eq_none_iff.mp found op window immediate)
      | some move => exact ⟨_, inside, move, rfl, rfl⟩
  · obtain ⟨-, move, found, rfl⟩ := moveImmediate_eq_ok_iff.mp accepted
    refine ⟨⟨_, _, _, rfl, WindowMove.prefers_of_ofValue? found⟩, fun machine ready ↦ ?_⟩
    rw [← DataProcessing.value_of_ofValue? found]
    exact read_step_moveWide move ready

/-- A narrow constant with one window of zeros: the complement, with zeros above. -/
theorem moveImmediate_exact_narrow :
    let instruction : Instruction := .moveWide .w32 .movn ⟨0, by decide⟩ 1 3
    moveImmediate .w32 3 (-2) = .ok instruction ∧
      (∃ op window immediate, instruction = .moveWide .w32 op window immediate 3 ∧
        op.Prefers .w32 window immediate.toNat (Width.w32.reduce (-2))) ∧
      ((Machine.ofWord instruction.encode).step.2.registers.read 3).toNat = 0xFFFFFFFE := by
  intro instruction
  have accepted : moveImmediate .w32 3 (-2) = .ok instruction := rfl
  have ready := Machine.aboutToExecute_ofWord instruction.encode
  obtain ⟨preferred, executes⟩ :=
    (@moveImmediate_exact BufferConsole MemoryStore ManualClock _ _ _ .w32 3 (-2)).2
      instruction accepted
  exact ⟨accepted, preferred, (executes _ ready).2⟩

/-- The zero register takes a constant and still reads as zero. -/
theorem moveImmediate_zero_register :
    let instruction : Instruction := .moveWide .w64 .movz ⟨0, by decide⟩ 5 Reg.special
    moveImmediate .w64 Reg.special 5 = .ok instruction ∧
      (Machine.ofWord instruction.encode).AboutToExecute instruction.encode ∧
      ((Machine.ofWord instruction.encode).step.2.registers.read Reg.special).toNat ≠
        Width.w64.reduce 5 := by
  intro instruction
  have accepted : moveImmediate .w64 Reg.special 5 = .ok instruction := rfl
  have ready := Machine.aboutToExecute_ofWord instruction.encode
  have left := (read_step_moveWide ⟨false, ⟨0, by decide⟩, 5⟩ ready).2
  refine ⟨accepted, ready, ?_⟩
  rw [left]
  decide

end Selection

end MiniA64
