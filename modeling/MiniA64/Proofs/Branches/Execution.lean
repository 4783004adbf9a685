import MiniA64.Proofs.Assembly.Assembled
import MiniA64.Proofs.Machine.Loading
import MiniA64.Proofs.Machine.NamedRegisters

/-!
# Branches to labels

A branch holds its way to the label as a displacement from its own address. Both addresses come
from the layout, and the layout agrees with the code, so the machine that takes the branch arrives
at the first byte that is emitted after the label. This needs that no `set` binds a name anew: a
size that is set again after its use is not the one of the layout when the code is emitted.
-/

namespace MiniA64

namespace Branches

/-- What a branch is taken on. -/
inductive Test
  | always
  | flags (condition : Condition)
  | register (name : RegisterName) (nonzero : Bool)
  deriving DecidableEq, Repr

def Test.holds (registers : Registers) : Test → Bool
  | always => true
  | flags condition => condition.holds registers.flags
  | register name nonzero => (registers.valueOf name != 0) == nonzero

structure Branch where
  link : Bool
  test : Test
  label : String
  deriving DecidableEq, Repr

/-- The branch to a label that a statement denotes. -/
def branch? : Mnemonic → List OperandKind → Option Branch
  | .branch link, [.symbol label] => some ⟨link, .always, label⟩
  | .branchIf condition, [.symbol label] => some ⟨false, .flags condition, label⟩
  | .compareBranch nonzero, [.register name, .symbol label] =>
    some ⟨false, .register name nonzero, label⟩
  | _, _ => none

/-- The registers after a branch that stands at one address and goes to another one. -/
def Branch.run (branch : Branch) (address target : Nat) (registers : Registers) : Registers :=
  let linked :=
    if branch.link then registers.store (.general 30 .w64) (address + 4) else registers
  { linked with pc := if branch.test.holds registers then target else address + 4 }

variable {κ φ τ : Type} {machine : Machine κ φ τ} {branch : Branch} {address target : Nat}

theorem wrap_natCast {value : Nat} (below : value < 2 ^ 64) : Registers.wrap value = value := by
  rw [Registers.wrap]
  omega

/-- A displacement to an address leads there. -/
theorem relative_eq {bits : Nat} {offset : BitVec bits} (here : machine.registers.pc = address)
    (way : (target : Int) - address = offset.toInt * 4) : machine.relative offset = target := by
  rw [Machine.relative, here, ← way]
  omega

theorem bne_toNat {bits : Nat} (value : BitVec bits) : (value != 0) = (value.toNat != 0) := by
  rw [Bool.eq_iff_iff, bne_iff_ne, bne_iff_ne, ne_eq, ne_eq, ← BitVec.toNat_inj]
  rfl

/-- A branch without a link goes to its target or on to the next instruction. -/
theorem jump_or_proceed (test : Test) (label : String) (here : machine.registers.pc = address)
    (below : target < 2 ^ 64) (room : address + 4 < 2 ^ 64) :
    (if test.holds machine.registers = true then machine.jump target else machine.proceed) =
      { machine with
        registers := Branch.run ⟨false, test, label⟩ address target machine.registers } := by
  have next : machine.nextPc = ((address + 4 : Nat) : Int) := by
    rw [Machine.nextPc, here]
    rfl
  simp only [Branch.run, Bool.false_eq_true, if_false]
  split
  · rw [Machine.jump, wrap_natCast below]
  · rw [Machine.proceed, Machine.jump, next, wrap_natCast room]
    rfl

theorem link_jump (label : String) (here : machine.registers.pc = address)
    (below : target < 2 ^ 64) (room : address + 4 < 2 ^ 64) :
    machine.link.jump target =
      { machine with
        registers := Branch.run ⟨true, .always, label⟩ address target machine.registers
        depth := machine.depth + 1 } := by
  have linked : machine.registers.write Reg.link (BitVec.ofInt 64 machine.nextPc) =
      machine.registers.store (.general 30 .w64) (address + 4) := by
    have link : Reg.link = (RegisterName.general 30 .w64).number := rfl
    have next : machine.nextPc = ((address + 4 : Nat) : Int) := by
      rw [Machine.nextPc, here]
      rfl
    rw [link, machine.registers.write_number rfl, next, BitVec.ofInt_natCast,
      BitVec.toNat_ofNat, Nat.mod_eq_of_lt room]
  simp only [Machine.link, Machine.jump, linked, wrap_natCast below, Branch.run, Test.holds,
    if_true]

/-- An accepted branch to a label goes to the address of the label if it is taken. -/
theorem execute_branch [Console κ] [FileStore φ] [Clock τ] {mnemonic : Mnemonic} {site : Site}
    {operands : List Operand} {instruction : Instruction}
    (branches : branch? mnemonic (operands.map (·.kind)) = some branch)
    (selected : mnemonic.select site operands = .ok instruction)
    (labelled : site.symbols.value? branch.label = some (target : Int))
    (here : machine.registers.pc = site.address) (below : target < 2 ^ 64)
    (room : site.address + 4 < 2 ^ 64) :
    machine.execute instruction = { machine with
      registers := branch.run site.address target machine.registers
      depth := if branch.link then machine.depth + 1 else machine.depth } := by
  have taken {bits : Nat} {offset : BitVec bits} {operand : Operand}
      (kind : operand.kind = .symbol branch.label)
      (selected : Selection.branchOffset site bits operand = .ok offset) (some : 0 < bits) :
      machine.relative offset = target := by
    have way := Selection.branchOffset_ok some selected
    rw [kind, OperandKind.displacement?, labelled, Option.map_some, Option.some.injEq] at way
    exact relative_eq here way
  unfold branch? at branches
  split at branches
  · rename_i link label hkinds
    obtain ⟨operand, rfl, kind⟩ := List.map_eq_singleton_iff.mp hkinds
    cases branches
    obtain ⟨offset, hoffset, result⟩ := Selection.bind_eq_ok.mp selected
    cases Selection.pure_eq_ok.mp result
    have jumps := taken kind hoffset (by decide)
    cases link with
    | true => exact (congrArg machine.link.jump jumps).trans (link_jump label here below room)
    | false =>
      have jumped := jump_or_proceed .always label here below room
      rw [if_pos (show Test.always.holds machine.registers = true from rfl)] at jumped
      rw [Machine.execute, jumps]
      exact jumped
  · rename_i condition label hkinds
    obtain ⟨operand, rfl, kind⟩ := List.map_eq_singleton_iff.mp hkinds
    cases branches
    obtain ⟨offset, hoffset, result⟩ := Selection.bind_eq_ok.mp selected
    cases Selection.pure_eq_ok.mp result
    rw [Machine.execute, taken kind hoffset (by decide)]
    exact jump_or_proceed (.flags condition) label here below room
  · rename_i nonzero name label hkinds
    obtain ⟨tested, rest, rfl, register, hrest⟩ := List.map_eq_cons_iff.mp hkinds
    obtain ⟨operand, rfl, kind⟩ := List.map_eq_singleton_iff.mp hrest
    cases branches
    obtain ⟨rt, hrt, selected⟩ := Selection.bind_eq_ok.mp selected
    obtain ⟨offset, hoffset, result⟩ := Selection.bind_eq_ok.mp selected
    cases Selection.pure_eq_ok.mp result
    obtain ⟨named, notStack⟩ := Selection.dataRegister_ok hrt
    cases register.symm.trans named
    have tests : (machine.registers.readAt rt.width rt.number != 0) =
        (machine.registers.valueOf rt.name != 0) := by
      rw [← machine.registers.toNat_readAt ⟨notStack, rfl⟩]
      exact bne_toNat _
    have holds : ((machine.registers.valueOf rt.name != 0) = nonzero) =
        ((Test.register rt.name nonzero).holds machine.registers = true) := by
      rw [Test.holds, beq_iff_eq]
    rw [Machine.execute, taken kind hoffset (by decide), tests]
    simp only [holds]
    exact jump_or_proceed (.register rt.name nonzero) label here below room
  · cases branches

/-! ## One step of an assembled program -/

/--
A branch to a label in a program that has been assembled. Where the branch and the label stand is
the number of bytes emitted before them. A machine that stands at the branch goes in one step to
the label, or on if the branch is not taken, and nothing changes but the counter and the link.
-/
theorem step_branch [Console κ] [FileStore φ] [Clock τ] {assembler finished : Assembler}
    {program : Program} {before after earlier later : List Statement}
    {statement label : Statement} {mnemonic : Mnemonic} {spelling : String}
    {operands : List Operand}
    (accepted : assembler.generate program = (.ok (), finished))
    (once : SetsOnce program.statements)
    (stands : program.statements = before ++ statement :: after)
    (reads : statement.kind = .instruction mnemonic spelling operands)
    (branches : branch? mnemonic (operands.map (·.kind)) = some branch)
    (labelled : program.statements = earlier ++ label :: later)
    (labels : label.kind = .label branch.label) :
    ∃ here there,
      Emission.ofStatements assembler.limits finished.symbols before = .ok here ∧
      Emission.ofStatements assembler.limits finished.symbols earlier = .ok there ∧
      here.code.toList <+: finished.code ∧ there.code.toList <+: finished.code ∧
      ∀ machine : Machine κ φ τ, machine.StandsAt finished.code here.address →
        machine.step = (true, { machine with
          registers := branch.run here.address there.address machine.registers
          depth := if branch.link then machine.depth + 1 else machine.depth
          executed := machine.executed + 1 }) := by
  obtain ⟨⟨layout, laidOut, symbols⟩, emitted⟩ := Assembler.generate_ok accepted
  rw [← symbols] at emitted ⊢
  have emittedHere := emitted
  have emittedThere := emitted
  rw [stands] at emittedHere
  rw [labelled] at emittedThere laidOut once
  obtain ⟨here, next, placed⟩ := Emission.exists_splitAt emittedHere
  obtain ⟨there, landed, placedThere⟩ := Emission.exists_splitAt emittedThere
  have value := value?_label once laidOut labels placedThere.before
  have stepHere := placed.statement
  rw [Emission.statement, reads] at stepHere
  obtain ⟨instruction, selected, rfl⟩ := Emission.instruction_ok stepHere
  have codeHere : here.code.toList ++ instruction.encode.toBytes <+: finished.code := by
    rw [← Emission.code_append statement.location]
    exact placed.code
  have prefixHere : here.code.toList <+: finished.code :=
    (List.prefix_append _ _).trans codeHere
  have prefixThere : there.code.toList <+: finished.code :=
    (Emission.prefix_statement placedThere.statement).trans placedThere.code
  refine ⟨here, there, placed.before, placedThere.before, prefixHere, prefixThere,
    fun machine standing ↦ ?_⟩
  have ready := standing.aboutToExecute here.address_eq_length.symm codeHere
  have limit : (finished.code.length : Int) < 2 ^ 63 := standing.indexable
  have below : there.address < 2 ^ 64 := by
    have := prefixThere.length_le
    rw [there.address_eq_length]
    omega
  have room : here.address + 4 < 2 ^ 64 := by
    have := codeHere.length_le
    rw [List.length_append, Word.length_toBytes] at this
    rw [here.address_eq_length]
    omega
  have executed := execute_branch branches selected value standing.pc below room
  have running : (machine.execute instruction).status = .running := by
    rw [executed]
    exact standing.running
  rw [ready.step_eq running, executed]

/-- A branch over padding that is not taken or goes to the address sixteen. -/
theorem step_branch_over_padding :
    let branch : Statement := ⟨0, default, .instruction (.compareBranch true) "cbnz"
      [⟨0, default, .register (.general 0 .w32)⟩, ⟨0, default, .symbol "done"⟩]⟩
    let padding : Statement := ⟨0, default, .directive .balign [⟨0, default, .immediate 16⟩]⟩
    let label : Statement := ⟨0, default, .label "done"⟩
    let program : Program := ⟨"", "", 0, [branch, padding, label], 0⟩
    let assembler := Assembler.new {}
    let finished := (assembler.generate program).2
    assembler.generate program = (.ok (), finished) ∧ SetsOnce program.statements ∧
      (∃ machine : Machine BufferConsole MemoryStore ManualClock,
        machine.StandsAt finished.code 0) ∧
      ∃ here there,
        Emission.ofStatements assembler.limits finished.symbols [] = .ok here ∧
        Emission.ofStatements assembler.limits finished.symbols [branch, padding] = .ok there ∧
        here.code.toList <+: finished.code ∧ there.code.toList <+: finished.code ∧
        ∀ machine : Machine BufferConsole MemoryStore ManualClock,
          machine.StandsAt finished.code here.address →
            machine.step = (true, { machine with
              registers := Branch.run ⟨false, .register (.general 0 .w32) true, "done"⟩
                here.address there.address machine.registers
              depth := machine.depth
              executed := machine.executed + 1 }) := by
  intro branch padding label program assembler finished
  have result : (assembler.generate program).1 = .ok () := by
    dsimp only [assembler, program, branch, padding, label]
    rfl
  have accepted : assembler.generate program = (.ok (), finished) := by rw [← result]
  have once : SetsOnce program.statements := by
    simp [SetsOnce, program, branch, padding, label, Statement.assigned?]
  have loaded : ∃ blank loaded,
      Machine.new 64 { memorySize := 64 } ⟨BufferConsole.ofInput [], MemoryStore.empty,
        ManualClock.startingAt 0⟩ = .ok blank ∧
      blank.load finished.code = .ok loaded := by
    dsimp only [finished, assembler, program, branch, padding, label]
    exact ⟨_, _, rfl, rfl⟩
  obtain ⟨blank, machine, created, loads⟩ := loaded
  have stands : machine.StandsAt finished.code 0 :=
    Machine.standsAt_load created rfl (by decide) (by decide) loads
  refine ⟨accepted, once, ⟨machine, stands⟩, ?_⟩
  have before : program.statements = [] ++ branch :: [padding, label] := rfl
  have earlier : program.statements = [branch, padding] ++ label :: [] := rfl
  exact step_branch accepted once before rfl rfl earlier rfl

end Branches

end MiniA64
