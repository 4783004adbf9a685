import MiniA64.Proofs.Isa.Exactness
import MiniA64.Proofs.Machine.Stepping

/-!
# What can change memory

Memory is changed by stores and by services alone, and all other instructions leave it as it is,
whatever the machine. The words of these instructions are supervisor calls and words in the group
of loads and stores, with the one exception of the words that are taken for pairs: an addition of
an extended register that sets the flags is executed as a store.
-/

namespace MiniA64

namespace Word

/-- The word is a supervisor call. -/
def isSupervisorCall (word : Word) : Bool :=
  word.field 21 11 = 0b11010100000 && word.field 0 5 = 1

/-- The word is in the group of loads and stores. -/
def isLoadStore (word : Word) : Bool := word.bit 27 && !word.bit 25

end Word

/-! ## Instructions -/

/-- The instruction can change memory. -/
def Instruction.changesMemory : Instruction → Bool
  | exception .svc _ => true
  | loadStore (.store _) _ _ _ => true
  | pair _ false _ _ _ _ _ => true
  | _ => false

section

variable {κ φ τ : Type}

theorem World.memory_read (world : World κ φ τ) (address length : Int) :
    (world.read address length).2.memory = world.memory := by
  unfold read
  split <;> rfl

namespace Machine

/-- A load leaves memory as it is, also when it is rejected. -/
theorem memory_access {transfer : Transfer} (loads : transfer.code ≠ 0)
    (machine : Machine κ φ τ) (address : BitVec 64) (rt : Reg) :
    (machine.access transfer address rt).world.memory = machine.world.memory := by
  have read := machine.world.memory_read address.toNat transfer.byteCount
  cases transfer with
  | store => exact absurd rfl loads
  | load | loadSigned64 | loadSigned32 =>
    unfold access
    dsimp only
    split <;> exact read

theorem memory_loadStore {transfer : Transfer} (loads : transfer.code ≠ 0)
    (machine : Machine κ φ τ) (address : Addressing) (rn rt : Reg) :
    (machine.loadStore transfer address rn rt).world.memory = machine.world.memory := by
  cases address <;> exact memory_access loads machine _ rt

theorem memory_pair (machine : Machine κ φ τ) (width : Width) (mode : PairMode)
    (offset : BitVec 7) (rt2 rn rt : Reg) :
    (machine.pair width true mode offset rt2 rn rt).world.memory = machine.world.memory := by
  have loads : (pairTransfer width true).code ≠ 0 := by cases width <;> decide
  have both (first second : BitVec 64) :
      ((machine.access (pairTransfer width true) first rt).access (pairTransfer width true) second
        rt2).world.memory = machine.world.memory :=
    (memory_access loads _ second rt2).trans (memory_access loads machine first rt)
  cases mode <;> exact both _ _

variable [Console κ] [FileStore φ] [Clock τ]

theorem memory_execute {instruction : Instruction} (quiet : instruction.changesMemory = false)
    (machine : Machine κ φ τ) :
    (machine.execute instruction).world.memory = machine.world.memory := by
  cases instruction with
  | hint | barrier | moveWide | bitfield | extract | twoSource | multiplyAdd => rfl
  | branchRegister op rn =>
    cases op with
    | br | blr => rfl
    | ret =>
      unfold execute branchRegister
      dsimp only
      split <;> rfl
  | exception op number =>
    cases op with
    | svc => cases quiet
    | hvc | smc => rfl
  | addSubImmediate width op setsFlags => cases setsFlags <;> rfl
  | addSubRegister width op setsFlags => cases setsFlags <;> rfl
  | logical width op => cases op <;> rfl
  | branch link => cases link <;> rfl
  | branchIf | compareBranch =>
    unfold execute
    dsimp only
    split <;> rfl
  | loadStore transfer address rn rt =>
    cases transfer with
    | store => cases quiet
    | load | loadSigned64 | loadSigned32 =>
      exact memory_loadStore (by simp [Transfer.code]) machine address rn rt
  | loadLiteral load offset rt =>
    have loads : load.transfer.code ≠ 0 := by cases load <;> decide
    exact memory_access loads machine _ rt
  | pair width load mode offset rt2 rn rt =>
    cases load with
    | false => cases quiet
    | true => exact memory_pair machine width mode offset rt2 rn rt

end Machine

end

/-! ## Words -/

namespace Word

theorem isSupervisorCall_encode (number : BitVec 16) :
    (Instruction.exception .svc number).encode.isSupervisorCall = true := by
  have low (word : Word) : word.field 0 5 = word.field 2 3 ++ word.field 0 2 :=
    (@field_append word 2 0 3 2 rfl).symm
  rw [isSupervisorCall, low]
  simp (disch := decide) only [Instruction.encode, field, BitVec.extractLsb'_append_eq_of_le,
    BitVec.extractLsb'_append_eq_of_add_le, -Nat.reduceAdd, -Nat.reduceSub]
  simp [ExceptionOp.code]

theorem isLoadStore_loadStore (transfer : Transfer) (address : Addressing) (rn rt : Reg) :
    (Instruction.loadStore transfer address rn rt).encode.isLoadStore = true := by
  cases address <;>
    simp (disch := decide) only [isLoadStore, Instruction.encode, Addressing.encode, bit,
      getLsbD_append_high, getLsbD_append_low, -Nat.reduceAdd, -Nat.reduceSub] <;>
    rfl

theorem isLoadStore_pair (width : Width) (load : Bool) (mode : PairMode) (offset : BitVec 7)
    (rt2 rn rt : Reg) :
    (Instruction.pair width load mode offset rt2 rn rt).encode.isLoadStore = true := by
  simp (disch := decide) only [isLoadStore, Instruction.encode, bit, getLsbD_append_high,
    getLsbD_append_low, -Nat.reduceAdd, -Nat.reduceSub]
  rfl

/-- A word that is decoded to an instruction that can change memory. -/
theorem kind_of_changesMemory {word : Word} {instruction : Instruction}
    (decoded : decode word = .ok instruction) (changes : instruction.changesMemory = true) :
    word.isSupervisorCall = true ∨ word.isLoadStore = true ∨
      word.isExtendedAdd = true ∧ word.bit 22 = false := by
  cases extended : word.isExtendedAdd with
  | true =>
    obtain ⟨mode, offset, rt2, rn, rt, -, pair⟩ := Decoding.decode_of_isExtendedAdd extended
    cases decoded.symm.trans pair
    cases load : word.bit 22 with
    | false => exact .inr (.inr ⟨rfl, rfl⟩)
    | true =>
      rw [load] at changes
      cases changes
  | false =>
    obtain rfl := Instruction.encode_of_decode decoded extended
    cases instruction with
    | exception op number =>
      cases op with
      | svc => exact .inl (isSupervisorCall_encode number)
      | hvc | smc => cases changes
    | loadStore transfer address rn rt =>
      exact .inr (.inl (isLoadStore_loadStore transfer address rn rt))
    | pair width load mode offset rt2 rn rt =>
      exact .inr (.inl (isLoadStore_pair width load mode offset rt2 rn rt))
    | _ => cases changes

end Word

namespace Machine

variable {κ φ τ : Type}

/-- A machine that stops without executing a word has the memory that it had. -/
theorem memory_of_fetch {machine stopped : Machine κ φ τ} (h : machine.fetch = .error stopped) :
    stopped.world.memory = machine.world.memory := by
  obtain rfl | ⟨cause, rfl⟩ | rfl := eq_of_fetch_error h <;> rfl

variable [Console κ] [FileStore φ] [Clock τ]

theorem memory_perform {word : Word} (machine : Machine κ φ τ)
    (quiet : ∀ instruction, decode word = .ok instruction → instruction.changesMemory = false) :
    (machine.perform word).world.memory = machine.world.memory := by
  unfold perform
  split
  · rename_i instruction decoded
    have executed := memory_execute (quiet instruction decoded) machine
    unfold count
    split <;> exact executed
  · rfl

/--
One step leaves memory as it is unless the word is a supervisor call or a load or store, or an
addition that is taken for a store.
-/
theorem memory_step (machine : Machine κ φ τ) :
    machine.step.2.world.memory = machine.world.memory ∨
      ∃ word, machine.fetch = .ok word ∧
        (word.isSupervisorCall = true ∨ word.isLoadStore = true ∨
          word.isExtendedAdd = true ∧ word.bit 22 = false) := by
  unfold step
  cases fetched : machine.fetch with
  | error stopped => exact .inl (memory_of_fetch fetched)
  | ok word =>
    by_cases quiet : ∀ instruction, decode word = .ok instruction →
        instruction.changesMemory = false
    · exact .inl (memory_perform machine quiet)
    · obtain ⟨instruction, changes⟩ := Classical.not_forall.mp quiet
      obtain ⟨decoded, changes⟩ := Classical.not_imp.mp changes
      refine .inr ⟨word, rfl, Word.kind_of_changesMemory decoded ?_⟩
      simpa using changes

/-- An addition that stores: memory is changed at the address before the one in its base. -/
theorem memory_step_extended :
    let word : Word := 0x2b3f0020
    let memory : Memory := ⟨0, (word.toBytes ++ List.replicate 12 1).toArray, 4⟩
    let host : Host BufferConsole MemoryStore ManualClock := ⟨.ofInput [], .empty, .startingAt 0⟩
    let machine := (ofMemory {} memory host #[]).write .w64 1 16
    machine.AboutToExecute word ∧ word.isSupervisorCall = false ∧ word.isLoadStore = false ∧
      machine.step.2.world.memory.bytes.toList = (word.toBytes ++ List.replicate 4 1) ++
        List.replicate 8 0 := by
  intro word memory host machine
  refine ⟨⟨rfl, by decide, rfl, ⟨0, rfl, by decide⟩, rfl⟩, by decide, by decide, ?_⟩
  decide +kernel

end Machine

end MiniA64
