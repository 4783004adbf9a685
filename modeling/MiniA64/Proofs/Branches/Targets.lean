import MiniA64.Isa.Printing
import MiniA64.Proofs.Branches.Execution
import MiniA64.Proofs.Isa.Exactness
import MiniA64.Proofs.Machine.Atomicity
import MiniA64.Proofs.Transfers.Execution

/-!
# Where control goes from a word

The target that is shown beside a word is read off four patterns, and the word is executed by
matching all families in their order. Both readings agree. A word without a target goes on to the
next one, unless it branches to a register. A word with a target is a branch, which goes there if it
is taken, or a load from there, which goes on. Addresses are reduced to 64 bits in both cases, so a
branch may lead across zero.
-/

namespace MiniA64

namespace Word

/-- What a branch is taken on, for a word with the pattern of a branch relative to its address. -/
def test? (word : Word) : Option Branches.Test :=
  if word.field 26 5 = 0b00101 then some .always
  else if word.field 24 8 = 0x54 ∧ word.bit 4 = false then
    some (.flags (.ofCode (word.field 0 4)))
  else if word.field 25 6 = 0b011010 then
    some (.register (Reg.dataName (word.field 0 5) (.ofBit (word.bit 31))) (word.bit 24))
  else none

/-- What is loaded into which register, for a word with the pattern of a literal load. -/
def literal? (word : Word) : Option (TransferName × RegisterName) :=
  if word.field 24 6 = 0b011000 then
    if word.field 30 2 = 0 then some (.ldr, Reg.dataName (word.field 0 5) .w32)
    else if word.field 30 2 = 1 then some (.ldr, Reg.dataName (word.field 0 5) .w64)
    else if word.field 30 2 = 2 then some (.ldrsw, Reg.dataName (word.field 0 5) .w64)
    else none
  else none

end Word

/--
What a target says of the machine that executes its word. A branch goes there if it is taken. A load
makes one access there, and the machine is otherwise as before it but for the two counters.
-/
def Word.Foretells {κ φ τ : Type} (word : Word) (target : Int) (before after : Machine κ φ τ) :
    Prop :=
  match word.test?, word.literal? with
  | some test, none =>
    after.registers.pc =
      (if test.holds before.registers then target else before.registers.pc + 4) % 2 ^ 64
  | none, some (name, register) =>
    let (registers, world) :=
      (Transfers.access name register target).run (before.registers, before.world)
    after = { before with
      registers := { registers with pc := (before.registers.pc + 4) % 2 ^ 64 }
      world
      executed := before.executed + 1 }
  | _, _ => False

/-- Whether the machine goes on to the next word after this instruction, whatever its state. -/
def Instruction.goesOn : Instruction → Bool
  | branchRegister .. | branch .. | branchIf .. | compareBranch .. => false
  | _ => true

namespace Branches

variable {κ φ τ : Type} {machine : Machine κ φ τ} {word : Word} {instruction : Instruction}

/-! ## Words without a target -/

/-- A branch that is not to a register has one of the patterns of a target. -/
theorem displacement?_encode (leaves : instruction.goesOn = false)
    (relative : ∀ op rn, instruction ≠ .branchRegister op rn) :
    instruction.encode.displacement? ≠ none := by
  have pattern : instruction.encode.field 26 5 = 0b00101 ∨
      (instruction.encode.field 24 8 = 0x54 ∧ instruction.encode.bit 4 = false) ∨
      instruction.encode.field 25 6 = 0b011010 := by
    cases instruction
    case' branch => left
    case' branchIf => right; left
    case' compareBranch => right; right
    case branch | branchIf | compareBranch =>
      simp (disch := decide) [Instruction.encode, Word.bit_eq_false_iff, Word.field,
        BitVec.extractLsb'_append_eq_of_le, BitVec.extractLsb'_append_eq_of_add_le,
        -Nat.reduceAdd, -Nat.reduceSub]
    case branchRegister op rn => exact absurd rfl (relative op rn)
    all_goals cases leaves
  unfold Word.displacement?
  split
  · exact Option.some_ne_none _
  rename_i other
  rw [if_pos (by grind)]
  exact Option.some_ne_none _

theorem goesOn_of_decode (decoded : decode word = .ok instruction)
    (none : word.displacement? = none)
    (relative : ∀ op rn, word ≠ (Instruction.branchRegister op rn).encode) :
    instruction.goesOn = true := by
  have ordinary : instruction.goesOn = false → word.isExtendedAdd = false := by
    refine fun leaves ↦ Bool.eq_false_iff.mpr fun extended ↦ ?_
    obtain ⟨mode, offset, rt2, rn, rt, -, pair⟩ := Decoding.decode_of_isExtendedAdd extended
    cases decoded.symm.trans pair
    cases leaves
  refine Bool.eq_true_of_not_eq_false fun leaves ↦ ?_
  have written := Instruction.encode_of_decode decoded (ordinary leaves)
  refine displacement?_encode leaves (fun op rn same ↦ ?_) (written ▸ none)
  exact relative op rn (same ▸ written.symm)

theorem pc_proceed {before after : Machine κ φ τ} (stays : before.Stays after) :
    after.proceed.registers.pc = Registers.wrap (before.registers.pc + 4) :=
  congrArg (fun pc ↦ Registers.wrap (pc + 4)) stays.pc

variable [Console κ] [FileStore φ] [Clock τ]

/-- An instruction that is no branch goes on to the next word if it leaves the machine running. -/
theorem pc_execute (goes : instruction.goesOn = true)
    (runs : (machine.execute instruction).status = .running) :
    (machine.execute instruction).registers.pc = Registers.wrap (machine.registers.pc + 4) := by
  cases instruction with
  | branchRegister | branch | branchIf | compareBranch => cases goes
  | hint | barrier => rfl
  | exception op number =>
    cases op with
    | hvc | smc => rfl
    | svc =>
      rw [Machine.execute, Machine.serviceCall_eq] at runs ⊢
      dsimp only at runs ⊢
      generalize Service.dispatch machine.config _ _ machine.world = answer at runs ⊢
      obtain ⟨result, world⟩ := answer
      cases result with
      | done value => cases value <;> rfl
      | halt | fault => cases runs
  | addSubImmediate => exact pc_proceed (machine.stays_addSubImmediate ..)
  | addSubRegister => exact pc_proceed (machine.stays_addSubRegister ..)
  | logical => exact pc_proceed (machine.stays_logical ..)
  | moveWide | bitfield | extract | twoSource | multiplyAdd =>
    exact pc_proceed (machine.stays_write ..)
  | loadStore => exact pc_proceed (machine.stays_loadStore ..)
  | loadLiteral => exact pc_proceed (machine.stays_access ..)
  | pair => exact pc_proceed (machine.stays_pair ..)

/-! ## Words with a target -/

/-- A word that leaves the machine running is decoded, and its instruction is counted. -/
theorem exists_of_perform (runs : (machine.perform word).status = .running) :
    ∃ instruction, decode word = .ok instruction ∧
      (machine.execute instruction).status = .running ∧
      machine.perform word = { machine.execute instruction with
        executed := (machine.execute instruction).executed + 1 } := by
  cases decoded : decode word with
  | error error =>
    rw [Machine.perform, decoded] at runs
    cases runs
  | ok instruction =>
    have performed : machine.perform word = (machine.execute instruction).count := by
      rw [Machine.perform, decoded]
    have running : (machine.execute instruction).status = .running := by
      rw [← runs, performed, Machine.count]
      split <;> rfl
    exact ⟨instruction, rfl, running, performed.trans (if_pos (decide_eq_true running))⟩

omit [Console κ] [FileStore φ] [Clock τ] in
theorem pc_jump_or_proceed (condition : Prop) [Decidable condition] (target : Int) :
    (if condition then machine.jump target else machine.proceed).registers.pc =
      (if condition then target else machine.registers.pc + 4) % 2 ^ 64 := by
  split <;> rfl

variable {target : Int}

theorem foretells_branch (family : word.field 26 5 = 0b00101)
    (shown : word.target? machine.registers.pc = some target)
    (runs : (machine.perform word).status = .running) :
    word.Foretells target machine (machine.perform word) := by
  have test : word.test? = some .always := if_pos family
  have literal : word.literal? = none := if_neg (Word.field_ne_of_clash family (by decide))
  obtain ⟨instruction, decoded, -, performed⟩ := exists_of_perform runs
  cases decoded.symm.trans (Decoding.decode_of_branch family)
  rw [Word.target?, Word.displacement?, if_pos family] at shown
  cases shown
  rw [Word.Foretells, test, literal, performed]
  rfl

theorem foretells_branchIf (family : word.field 24 8 = 0x54) (clear : word.bit 4 = false)
    (shown : word.target? machine.registers.pc = some target)
    (runs : (machine.perform word).status = .running) :
    word.Foretells target machine (machine.perform word) := by
  have test : word.test? = some (.flags (.ofCode (word.field 0 4))) := by
    rw [Word.test?, Decoding.skip family (by decide), if_pos ⟨family, clear⟩]
  have literal : word.literal? = none := if_neg (Word.field_ne_of_clash family (by decide))
  obtain ⟨instruction, decoded, -, performed⟩ := exists_of_perform runs
  cases decoded.symm.trans (Decoding.decode_of_branchIf family clear)
  rw [Word.target?, Word.displacement?, Decoding.skip family (by decide),
    if_pos (.inl ⟨family, clear⟩)] at shown
  cases shown
  rw [Word.Foretells, test, literal, performed]
  exact pc_jump_or_proceed ..

theorem foretells_compareBranch (family : word.field 25 6 = 0b011010)
    (shown : word.target? machine.registers.pc = some target)
    (runs : (machine.perform word).status = .running) :
    word.Foretells target machine (machine.perform word) := by
  let register := Reg.dataName (word.field 0 5) (.ofBit (word.bit 31))
  have test : word.test? = some (.register register (word.bit 24)) := by
    rw [Word.test?, Decoding.skip family (by decide), Decoding.skip_and family (by decide),
      if_pos family]
  have literal : word.literal? = none := if_neg (Word.field_ne_of_clash family (by decide))
  obtain ⟨instruction, decoded, -, performed⟩ := exists_of_perform runs
  cases decoded.symm.trans (Decoding.decode_of_compareBranch family)
  rw [Word.target?, Word.displacement?, Decoding.skip family (by decide),
    if_pos (.inr (.inl family))] at shown
  cases shown
  have value := machine.registers.toNat_readAt
    (Reg.dataAt_dataName (word.field 0 5) (.ofBit (word.bit 31)))
  rw [Reg.number_dataName] at value
  have tested : (machine.registers.readAt (Decoding.width word) (Decoding.rd word) != 0) =
      (machine.registers.valueOf register != 0) :=
    (bne_toNat _).trans (congrArg (· != 0) value)
  rw [Word.Foretells, test, literal, performed, Machine.execute, tested]
  simp only [Test.holds, beq_iff_eq]
  exact pc_jump_or_proceed ..

/-- Decoding reads off a literal load what its pattern says. -/
theorem exists_of_loadLiteral (family : word.field 24 6 = 0b011000)
    (decoded : decode word = .ok instruction) :
    ∃ load name width, word.literal? = some (name, Reg.dataName (word.field 0 5) width) ∧
      name.transfer? width = some load.transfer ∧
      instruction = .loadLiteral load (word.field 5 19) (word.field 0 5) := by
  rw [Decoding.decode_of_loadLiteral family, Decoding.unknownIfNone_eq_ok,
    Decoding.loadLiteral] at decoded
  obtain ⟨load, known, rfl⟩ := Option.map_eq_some_iff.mp decoded
  have code : load.code = word.field 30 2 := code_of_find? known
  rw [Word.literal?, if_pos family, ← code]
  cases load with
  | word => exact ⟨.word, .ldr, .w32, rfl, rfl, rfl⟩
  | doubleWord => exact ⟨.doubleWord, .ldr, .w64, rfl, rfl, rfl⟩
  | signedWord => exact ⟨.signedWord, .ldrsw, .w64, rfl, rfl, rfl⟩

theorem foretells_loadLiteral (family : word.field 24 6 = 0b011000)
    (shown : word.target? machine.registers.pc = some target)
    (runs : (machine.perform word).status = .running) :
    word.Foretells target machine (machine.perform word) := by
  have test : word.test? = none := by
    rw [Word.test?, Decoding.skip family (by decide), Decoding.skip_and family (by decide),
      Decoding.skip family (by decide)]
  obtain ⟨instruction, decoded, -, performed⟩ := exists_of_perform runs
  obtain ⟨load, name, width, literal, transfer, rfl⟩ := exists_of_loadLiteral family decoded
  rw [Word.target?, Word.displacement?, Decoding.skip family (by decide),
    if_pos (.inr (.inr family))] at shown
  cases shown
  have wide :
      name.transfer? (Reg.dataName (word.field 0 5) width).width = some load.transfer := by
    rwa [Reg.width_dataName]
  have accessed := Transfers.access_eq machine (machine.relative (word.field 5 19)) wide
    (Reg.isStackPointer_dataName ..)
  rw [Reg.number_dataName] at accessed
  rw [Word.Foretells, test, literal]
  refine performed.trans ?_
  simp only [Machine.execute, accessed, Machine.proceed, Machine.jump, Machine.after,
    Machine.nextPc, Transfers.Access.pc_run, Registers.wrap]
  rfl

/--
Executing a word that leaves the machine running goes on to the next word if the word has no target
and is no branch to a register, and does what its target says if it has one.
-/
theorem perform_target (machine : Machine κ φ τ) (word : Word)
    (runs : (machine.perform word).status = .running) :
    match word.target? machine.registers.pc with
    | none => (∀ op rn, word ≠ (Instruction.branchRegister op rn).encode) →
        (machine.perform word).registers.pc = (machine.registers.pc + 4) % 2 ^ 64
    | some target => word.Foretells target machine (machine.perform word) := by
  cases shown : word.target? machine.registers.pc with
  | none =>
    intro relative
    obtain ⟨instruction, decoded, running, performed⟩ := exists_of_perform runs
    have goes := goesOn_of_decode decoded (Option.map_eq_none_iff.mp shown) relative
    rw [performed]
    exact pc_execute goes running
  | some target =>
    have pattern : word.displacement? ≠ none := fun none ↦ by
      rw [Word.target?, none] at shown
      cases shown
    unfold Word.displacement? at pattern
    split at pattern
    · exact foretells_branch ‹_› shown runs
    split at pattern
    · rename_i family
      obtain ⟨family, clear⟩ | family | family := family
      · exact foretells_branchIf family clear shown runs
      · exact foretells_compareBranch family shown runs
      · exact foretells_loadLiteral family shown runs
    · exact absurd rfl pattern

/-- A branch from the address zero to the last word below 2^64. -/
theorem perform_branch_below_zero :
    let word : Word := 0x17ffffff
    let machine := Machine.ofWord word
    (machine.perform word).status = .running ∧
      word.target? machine.registers.pc = some (-4) ∧
      word.Foretells (-4) machine (machine.perform word) ∧
      (machine.perform word).registers.pc = 2 ^ 64 - 4 := by
  intro word machine
  have runs : (machine.perform word).status = .running := by decide +kernel
  have shown : word.target? machine.registers.pc = some (-4) := by decide +kernel
  have foretold := perform_target machine word runs
  rw [shown] at foretold
  have test : word.test? = some .always := by decide +kernel
  have literal : word.literal? = none := by decide +kernel
  refine ⟨runs, shown, foretold, ?_⟩
  unfold Word.Foretells at foretold
  rw [test, literal] at foretold
  exact foretold

end Branches

end MiniA64
