import MiniA64.Proofs.Assembly.Checks
import MiniA64.Proofs.Assembly.Spellings
import MiniA64.Proofs.Assembly.Writing

/-!
# The statement that an instruction is printed as

Every text of an instruction is the text of a statement from which the same instruction is
selected, at every site: printing chooses the spelling and the operands so that selection undoes
the choice. The one exception is a conditional branch with the condition that is never written.
-/

namespace MiniA64

/-! ## Selection from operands -/

section

variable {operands : List Operand} {a b c : OperandKind}

theorem exists_one (h : operands.map (·.kind) = [a]) : ∃ s l, operands = [⟨s, l, a⟩] := by
  match operands, h with
  | [⟨s, l, _⟩], rfl => exact ⟨s, l, rfl⟩

theorem exists_two (h : operands.map (·.kind) = [a, b]) :
    ∃ s l s' l', operands = [⟨s, l, a⟩, ⟨s', l', b⟩] := by
  match operands, h with
  | [⟨s, l, _⟩, ⟨s', l', _⟩], rfl => exact ⟨s, l, s', l', rfl⟩

theorem exists_three (h : operands.map (·.kind) = [a, b, c]) :
    ∃ s l s' l' s'' l'', operands = [⟨s, l, a⟩, ⟨s', l', b⟩, ⟨s'', l'', c⟩] := by
  match operands, h with
  | [⟨s, l, _⟩, ⟨s', l', _⟩, ⟨s'', l'', _⟩], rfl => exact ⟨s, l, s', l', s'', l'', rfl⟩

end

namespace Selection

variable {slot : Nat} {location : Location} {name : RegisterName} {reg : Reg} {width : Width}
  {kind : ShiftKind} {amount value : Int} {site : Site}

@[simp] theorem ok_bind {ε α β : Type} (value : α) (next : α → Except ε β) :
    (Except.ok value >>= next) = next value := rfl

@[simp] theorem pure_eq {ε α : Type} (value : α) : (pure value : Except ε α) = .ok value := rfl

@[simp] theorem mapError_ok {ε δ α : Type} (value : α) (change : ε → δ) :
    (Except.ok value).mapError change = .ok value := rfl

@[simp] theorem registerOf?_register :
    registerOf? ⟨slot, location, .register name⟩ = some ⟨name, location⟩ := rfl

@[simp] theorem registerOf?_immediate :
    registerOf? ⟨slot, location, .immediate value⟩ = none := rfl

@[simp] theorem register_register :
    register ⟨slot, location, .register name⟩ = .ok ⟨name, location⟩ := rfl

@[simp] theorem asData_dataName :
    asData ⟨reg.dataName width, location⟩ = .ok ⟨reg.dataName width, location⟩ := by
  simp [asData]

@[simp] theorem asStack_stackName :
    asStack ⟨reg.stackName width, location⟩ = .ok ⟨reg.stackName width, location⟩ := by
  simp [asStack]

@[simp] theorem asRegisterForm_dataName :
    asRegisterForm ⟨reg.dataName width, location⟩ = .ok () := by
  simp [asRegisterForm]

@[simp] theorem dataRegister_dataName :
    dataRegister ⟨slot, location, .register (reg.dataName width)⟩ =
      .ok ⟨reg.dataName width, location⟩ := by
  rw [dataRegister, register_register]
  exact asData_dataName

@[simp] theorem value_immediate {what : Expected} :
    Selection.value site ⟨slot, location, .immediate value⟩ what = .ok value := rfl

end Selection

/-- At every site the instruction is selected for the statement. -/
def Sentence.Names (sentence : Sentence) (instruction : Instruction) : Prop :=
  ∀ (site : Site) (operands : List Operand),
    operands.map (·.kind) = sentence.operands.map Written.kind →
      sentence.mnemonic.select site operands = .ok instruction

/-- There are at most four operands, and none but the last one is a memory operand. -/
def Written.fit (operands : List Written) : Bool :=
  decide (operands.length ≤ 4) && operands.dropLast.all (!·.isMemory)

/-- The text is that of a statement that stands for the instruction. -/
structure Instruction.ReadsAs (instruction : Instruction) (text : String)
    (sentence : Sentence) : Prop where
  text : sentence.text = text
  proper : sentence.Proper
  few : sentence.operands.length ≤ 4
  names : sentence.Names instruction

def Instruction.Reads (instruction : Instruction) (text : String) : Prop :=
  ∃ sentence, instruction.ReadsAs text sentence

/-- A statement whose mnemonic has one spelling. -/
theorem Instruction.reads_of {instruction : Instruction} {text : String} (mnemonic : Mnemonic)
    (operands : List Written)
    (names : Sentence.Names ⟨mnemonic, mnemonic.name, operands⟩ instruction)
    (printed : Printing.line mnemonic.name (operands.map Written.text) = text)
    (unconditional : mnemonic.condition? = none) (fit : Written.fit operands = true) :
    instruction.Reads text := by
  obtain ⟨spelled, known⟩ :=
    Mnemonic.spelled_of_mem mnemonic (Mnemonic.mem_unconditional unconditional)
  obtain ⟨few, last⟩ := Bool.and_eq_true_iff.mp fit
  exact ⟨⟨mnemonic, mnemonic.name, operands⟩, printed, ⟨spelled, known, last⟩,
    of_decide_eq_true few, names⟩

/-- A statement without operands. -/
theorem Instruction.reads_of_name {instruction : Instruction} {mnemonic : Mnemonic}
    (selected : ∀ site, mnemonic.select site [] = .ok instruction)
    (unconditional : mnemonic.condition? = none) : instruction.Reads mnemonic.name := by
  apply reads_of mnemonic [] ?_ rfl unconditional rfl
  intro site operands none
  rw [List.map_eq_nil_iff.mp none]
  exact selected site

end MiniA64
