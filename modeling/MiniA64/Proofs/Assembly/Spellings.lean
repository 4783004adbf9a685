import MiniA64.Assembly.Grammar
import MiniA64.Proofs.Assembly.Lexing

/-!
# Spellings of mnemonics

Every mnemonic but the conditional branches has one spelling, which is scanned as one name and
looked up as the mnemonic. An instruction statement of a program has the mnemonic that its spelling
is looked up as.
-/

namespace MiniA64

namespace Mnemonic

theorem spelled_of_mem : ∀ mnemonic ∈ unconditional,
    Lexeme.isSpelling mnemonic.name.toList = true ∧
      ofSpelling? mnemonic.name = some mnemonic := by
  decide +kernel

theorem mem_unconditional {mnemonic : Mnemonic} (h : mnemonic.condition? = none) :
    mnemonic ∈ unconditional := by
  cases mnemonic with
  | branchIf => cases h
  | test | negate | invert | multiply | move => decide
  | addSub op setFlags => cases op <;> cases setFlags <;> decide
  | compare value | logical value | shift value | divide value | moveWide value | transfer value
  | unscaledTransfer value | pair value | branch value | compareBranch value
  | branchRegister value | hint value | barrier value | exception value | service value =>
    cases value <;> decide

/-- A conditional branch is spelled with a dot and its condition, if that is written at all. -/
theorem spelled_branchIf {condition : Condition} (written : condition ≠ .nv) :
    Lexeme.isSpelling ("b." ++ condition.name).toList = true ∧
      ofSpelling? ("b." ++ condition.name) = some (branchIf condition) := by
  revert written
  cases condition <;> decide

theorem mem_of_lookup {α β : Type} [BEq α] [LawfulBEq α] {entries : List (α × β)} {key : α}
    {value : β} (h : entries.lookup key = some value) : (key, value) ∈ entries := by
  obtain ⟨before, after, rfl, -⟩ := List.lookup_eq_some_iff.mp h
  simp

/-- No spelling stands for a branch with the condition that is never written. -/
theorem ne_branchIf_nv {spelling : String} {mnemonic : Mnemonic}
    (h : ofSpelling? spelling = some mnemonic) : mnemonic ≠ branchIf .nv := by
  have conditions : ∀ entry ∈ Condition.suffixes, entry.2 ≠ .nv := by decide
  have others : ∀ entry ∈ spellings, entry.2 ≠ branchIf .nv := by decide
  have written {suffix : String} {condition : Condition}
      (found : Condition.ofSuffix? suffix = some condition) : condition ≠ .nv :=
    conditions _ (mem_of_lookup found)
  unfold ofSpelling? at h
  dsimp only at h
  split at h
  · rename_i found lookup
    cases h
    exact others _ (mem_of_lookup lookup)
  · obtain ⟨condition, known, rfl⟩ := Option.map_eq_some_iff.mp h
    have notNv : condition ≠ .nv := by
      unfold branchCondition? at known
      split at known
      · exact written known
      · exact written known
      · cases known
    exact fun same ↦ notNv (branchIf.inj same)

end Mnemonic

/-! ## Spellings in a program -/

/-- An instruction has the mnemonic that its spelling stands for. -/
def Statement.Spelled (statement : Statement) : Prop :=
  ∀ mnemonic spelling operands, statement.kind = .instruction mnemonic spelling operands →
    Mnemonic.ofSpelling? spelling = some mnemonic

theorem Parser.forall_of_many {α : Type} {item : Parser (Option α)} {consumes : Consumes item}
    {good : α → Prop}
    (each : ∀ state result after, item state = .ok (some result, after) → good result)
    {state last : ParserState} {results : List α}
    (h : many item consumes state = .ok (results, last)) : ∀ result ∈ results, good result := by
  fun_induction many item consumes state generalizing results last with
  | case1 => cases h
  | case2 =>
    cases h
    simp
  | case3 => cases h
  | case4 state first between step rest last' tail ih =>
    cases h
    rintro result (_ | ⟨_, member⟩)
    · exact each _ _ _ step
    · exact ih tail result member

namespace Grammar

open MiniA64.Parser

variable {state after : ParserState} {statement : Statement}

theorem spelled_of_instruction {first : Token} {spelling : String}
    (h : instruction first spelling state = .ok (statement, after)) : statement.Spelled := by
  unfold instruction at h
  cases known : Mnemonic.ofSpelling? spelling with
  | none =>
    rw [known] at h
    cases h
  | some mnemonic =>
    rw [known] at h
    obtain ⟨operands, _, -, h⟩ := bind_eq_ok h
    obtain ⟨slot, _, -, h⟩ := bind_eq_ok h
    obtain ⟨_, _, -, h⟩ := bind_eq_ok h
    cases h
    rintro _ _ _ ⟨⟩
    exact known

theorem spelled_of_label {first : Token} {name : String}
    (h : label first name state = .ok (statement, after)) : statement.Spelled := by
  obtain ⟨_, _, -, h⟩ := bind_eq_ok h
  obtain ⟨slot, _, -, h⟩ := bind_eq_ok h
  cases h
  rintro _ _ _ ⟨⟩

theorem spelled_of_directive {dot : Token}
    (h : directive dot state = .ok (statement, after)) : statement.Spelled := by
  obtain ⟨name, _, -, h⟩ := bind_eq_ok h
  obtain ⟨arguments, _, -, h⟩ := bind_eq_ok h
  obtain ⟨slot, _, -, h⟩ := bind_eq_ok h
  obtain ⟨_, _, -, h⟩ := bind_eq_ok h
  cases h
  rintro _ _ _ ⟨⟩

theorem spelled_of_statement? {result : Option Statement}
    (h : statement? state = .ok (some result, after)) :
    ∀ statement ∈ result, statement.Spelled := by
  obtain ⟨first, between, -, h⟩ := bind_eq_ok h
  obtain ⟨next, between, -, h⟩ := bind_eq_ok h
  cases kind : first.kind
  case newline =>
    rw [kind] at h
    obtain ⟨_, _, -, h⟩ := bind_eq_ok h
    cases h
    simp
  case dot =>
    rw [kind] at h
    obtain ⟨_, _, -, h⟩ := bind_eq_ok h
    obtain ⟨statement, _, step, h⟩ := bind_eq_ok h
    cases h
    rintro _ ⟨⟩
    exact spelled_of_directive step
  case identifier name =>
    rw [kind] at h
    obtain ⟨_, _, -, h⟩ := bind_eq_ok h
    obtain ⟨statement, _, step, h⟩ := bind_eq_ok h
    cases h
    rintro _ ⟨⟩
    unfold namedStatement at step
    split at step
    · exact spelled_of_label step
    · exact spelled_of_instruction step
  all_goals
    rw [kind] at h
    cases h

end Grammar

theorem Program.spelled_of_parse {source file : String} {capacity : Int} {program : Program}
    (h : Program.parse source file capacity = .ok program) :
    ∀ statement ∈ program.statements, statement.Spelled := by
  unfold Program.parse at h
  simp only at h
  split at h
  · rename_i root statements state parsed
    cases h
    obtain ⟨_, _, -, parsed⟩ := Parser.bind_eq_ok parsed
    obtain ⟨results, _, step, parsed⟩ := Parser.bind_eq_ok parsed
    cases parsed
    intro statement member
    obtain ⟨result, found, rfl⟩ := List.mem_filterMap.mp member
    exact Parser.forall_of_many (fun _ _ _ ↦ Grammar.spelled_of_statement?) step _ found _ rfl
  · split at h <;> cases h

end MiniA64
