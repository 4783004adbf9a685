import MiniA64.Proofs.Assembly.Gaps.DataProcessing
import MiniA64.Proofs.Assembly.Gaps.Fields
import MiniA64.Proofs.Assembly.Gaps.Transfers
import MiniA64.Proofs.Assembly.Refusals

/-!
# Gaps of statements

What is known of each gap holds of every mnemonic, and of the word that a statement is encoded to. A
statement that is refused for the number in its gap is refused with an error of the assembler, unless
its message has a number that is too long to be printed.
-/

namespace MiniA64

namespace Gap

open Selection

variable {site : Site} {operands : List Operand} {index : Nat} {operand : Operand} {number : Int}
  {base : Instruction}

/-! ## All statements -/

variable {gap : Gap} {mnemonic : Mnemonic} {slot : Slot}

/-- Whatever the mnemonic is, a gap takes just the numbers that its field represents. -/
theorem exact_select (there : operands[index]? = some operand)
    (holds : gap.Holds site operand number) (accepted : mnemonic.select site operands = .ok base)
    (filled : gap.slot? (index + 1 == operands.length) mnemonic base = some slot) :
    gap.Exact site slot base fun next ↦ mnemonic.select site (operands.set index next) := by
  cases gap with
  | constant =>
    cases mnemonic with
    | addSub op setFlags =>
      cases filled
      exact exact_addSub there holds accepted
    | compare op =>
      cases filled
      exact exact_compare there holds accepted
    | shift kind => exact exact_shift there holds accepted filled
    | moveWide op =>
      cases filled
      exact exact_moveWide there holds accepted
    | exception op =>
      cases filled
      exact exact_exception there holds accepted
    | _ => cases filled
  | target =>
    cases mnemonic with
    | branch link =>
      cases filled
      exact exact_branch there holds accepted
    | branchIf condition =>
      cases filled
      exact exact_branchIf there holds accepted
    | compareBranch nonzero =>
      cases filled
      exact exact_compareBranch there holds accepted
    | transfer name =>
      cases filled
      exact exact_literal there holds accepted
    | _ => cases filled
  | amount kind =>
    cases mnemonic with
    | addSub op setFlags => exact exact_addSub_amount there holds accepted filled
    | compare op => exact exact_compare_amount there holds accepted filled
    | test =>
      obtain ⟨width, op, invert, field, rm, rn, rd, rfl, fits⟩ := exact_test there holds accepted
      cases filled
      exact fits
    | logical name =>
      obtain ⟨width, op, invert, field, rm, rn, rd, rfl, fits⟩ :=
        exact_logical there holds accepted
      cases filled
      exact fits
    | negate =>
      obtain ⟨width, op, setFlags, linear, field, rm, rn, rd, rfl, fits⟩ :=
        exact_negate there holds accepted
      cases filled
      exact fits
    | invert =>
      obtain ⟨width, op, inverted, field, rm, rn, rd, rfl, fits⟩ :=
        exact_invert there holds accepted
      cases filled
      exact fits
    | moveWide op =>
      obtain ⟨width, window, immediate, rd, rfl, fits⟩ := exact_window there holds accepted
      cases filled
      exact fits
    | _ => cases filled
  | offset rn =>
    cases mnemonic with
    | transfer name =>
      obtain ⟨form, address, rt, rfl, fits⟩ := exact_scaledOffset there holds accepted
      cases filled
      exact fits
    | unscaledTransfer name =>
      cases filled
      exact exact_unscaled there holds accepted
    | pair load =>
      obtain ⟨width, mode, field, rt2, rt, rfl, fits⟩ :=
        exact_pair id (fun _ ↦ rfl) there holds accepted
      cases filled
      exact fits
    | _ => cases filled
  | preIndex rn =>
    cases mnemonic with
    | transfer name =>
      cases filled
      exact exact_writeback id (fun _ _ _ ↦ rfl) (.inl rfl) there holds accepted
    | pair load =>
      obtain ⟨width, mode, field, rt2, rt, rfl, fits⟩ :=
        exact_pair id (fun _ ↦ rfl) there holds accepted
      cases filled
      exact fits
    | _ => cases filled
  | postIndex rn =>
    cases mnemonic with
    | transfer name =>
      cases filled
      exact exact_writeback id (fun _ _ _ ↦ rfl) (.inr rfl) there holds accepted
    | pair load =>
      obtain ⟨width, mode, field, rt2, rt, rfl, fits⟩ :=
        exact_pair id (fun _ ↦ rfl) there holds accepted
      cases filled
      exact fits
    | _ => cases filled

/-! ## Trials -/

/-- What has no result is refused with a diagnostic, whose numbers are those of the operands. -/
theorem trial_refused {operands : List Operand}
    (refused : ∀ instruction, mnemonic.select site operands ≠ .ok instruction) :
    ∃ diagnostic, Trial.select mnemonic site (operands.map Operand.node) =
        .error (.of diagnostic) ∧
      ((∀ operand ∈ operands, ∀ number ∈ operand.numbers site, Text.PrintableNumber number) →
        Trial.select mnemonic site (operands.map Operand.node) =
          .error (.diagnostic diagnostic)) := by
  rw [Trial.follows_iff.mp (Trial.follows_select mnemonic site operands)]
  cases known : mnemonic.select site operands with
  | error diagnostic =>
    refine ⟨diagnostic, rfl, fun printable ↦ congrArg Except.error (if_pos ?_)⟩
    let footing : Footing := ⟨fun _ ↦ True, Text.PrintableNumber, fun number short ↦ by
      rwa [Text.PrintableNumber, Int.natAbs_neg]⟩
    have answered : AnsweredOn footing (fun _ ↦ True) (mnemonic.select site operands) :=
      mnemonic.answered_select trivial fun operand member ↦ ⟨trivial, printable operand member⟩
    rw [known] at answered
    exact Footing.Refuses.stated answered
  | ok instruction => exact absurd known (refused instruction)

/-- The number in the gap of a statement that is accepted may be replaced by just those that fit. -/
theorem Accepted.fits {next : Operand} {other : Int}
    (accepted : gap.Accepted mnemonic site operands index number slot base)
    (refilled : gap.Holds site next other) :
    (slot.Represents base.encode other → ∃ instruction,
      Trial.select mnemonic site ((operands.set index next).map Operand.node) = .ok instruction ∧
        slot.Fills base.encode instruction.encode other ∧
        decode instruction.encode = .ok instruction) ∧
    (¬slot.Represents base.encode other → ∃ diagnostic,
      Trial.select mnemonic site ((operands.set index next).map Operand.node) =
          .error (.of diagnostic) ∧
        ((∀ operand ∈ operands.set index next, ∀ number ∈ operand.numbers site,
            Text.PrintableNumber number) →
          Trial.select mnemonic site ((operands.set index next).map Operand.node) =
            .error (.diagnostic diagnostic))) := by
  obtain ⟨operand, there, holds⟩ := accepted.holds
  have fits := exact_select there holds (trial_eq_ok_iff.mp accepted.accepted) accepted.filled
  constructor
  · intro represented
    obtain ⟨instruction, taken⟩ := fits.accepts next other refilled represented
    exact ⟨instruction, trial_eq_ok_iff.mpr taken,
      fits.fills next other instruction refilled taken, Instruction.decode_encode instruction⟩
  · intro unrepresented
    refine trial_refused fun instruction taken ↦ unrepresented ?_
    exact ⟨_, fits.fills next other instruction refilled taken⟩

/--
A statement that is accepted with some number in its gap is accepted with each number that the field
of the gap represents, and the word is as before but for the field, which has the number. With any
other number it is refused with a diagnostic, if the message of this can be written: it can if all
numbers of the operands can be printed. For each field of each instruction there is such a statement.
-/
theorem trial_select_exact (site : Site) :
    (∀ {gap : Gap} {mnemonic : Mnemonic} {operands : List Operand} {index : Nat} {number : Int}
        {slot : Slot} {base : Instruction} {next : Operand} {other : Int},
      gap.Accepted mnemonic site operands index number slot base → gap.Holds site next other →
        (slot.Represents base.encode other → ∃ instruction,
          Trial.select mnemonic site ((operands.set index next).map Operand.node) =
              .ok instruction ∧
            slot.Fills base.encode instruction.encode other ∧
            decode instruction.encode = .ok instruction) ∧
        (¬slot.Represents base.encode other → ∃ diagnostic,
          Trial.select mnemonic site ((operands.set index next).map Operand.node) =
              .error (.of diagnostic) ∧
            ((∀ operand ∈ operands.set index next, ∀ number ∈ operand.numbers site,
                Text.PrintableNumber number) →
              Trial.select mnemonic site ((operands.set index next).map Operand.node) =
                .error (.diagnostic diagnostic)))) ∧
      ∀ base : Instruction, ∀ slot ∈ base.slots, Opens site base slot :=
  ⟨Accepted.fits, fun _ _ ↦ opens_of_mem_slots⟩

/-- The constant of an addition becomes one that is subtracted and scaled. -/
theorem trial_select_exact_addition :
    let site : Site := ⟨.empty, 0, default, "add"⟩
    let register (index : Fin 31) : Operand := ⟨0, default, .register (.general index .w64)⟩
    let value (number : Int) : Operand := ⟨0, default, .immediate number⟩
    let select (number : Int) := Trial.select (.addSub .add false) site
      ([register 0, register 1, value number].map Operand.node)
    let base : Instruction := .addSubImmediate .w64 .add false false 5 1 0
    select 5 = .ok base ∧ (Slot.arithmetic .add).Represents base.encode (-4096) ∧
      ∃ instruction, select (-4096) = .ok instruction ∧
        (Slot.arithmetic .add).Fills base.encode instruction.encode (-4096) ∧
        decode instruction.encode = .ok instruction := by
  intro site register value select base
  have accepted : constant.Accepted (.addSub .add false) site [register 0, register 1, value 5] 2 5
      (.arithmetic .add) base := ⟨⟨_, rfl, rfl⟩, rfl, rfl⟩
  have refilled : constant.Holds site (value (-4096)) (-4096) := rfl
  have represented : (Slot.arithmetic .add).Represents base.encode (-4096) :=
    ⟨_, (Instruction.family_arithmetic .w64 0 1 .add false).fills ⟨.sub, true, 1⟩ ⟨.add, false, 5⟩⟩
  exact ⟨accepted.accepted, represented,
    ((trial_select_exact site).1 accepted refilled).1 represented⟩

/-- A constant with too many digits is refused without a diagnostic. -/
theorem trial_select_unprintable :
    let site : Site := ⟨.empty, 0, default, "add"⟩
    let register (index : Fin 31) : Operand := ⟨0, default, .register (.general index .w64)⟩
    let value (number : Int) : Operand := ⟨0, default, .immediate number⟩
    let select (number : Int) := Trial.select (.addSub .add false) site
      ([register 0, register 1, value number].map Operand.node)
    let base : Instruction := .addSubImmediate .w64 .add false false 5 1 0
    select 5 = .ok base ∧ ¬(Slot.arithmetic .add).Represents base.encode (16 ^ 3600 - 1) ∧
      select (16 ^ 3600 - 1) = .error (.lapse (.limit .printing)) := by
  intro site register value select base
  have accepted : constant.Accepted (.addSub .add false) site [register 0, register 1, value 5] 2 5
      (.arithmetic .add) base := ⟨⟨_, rfl, rfl⟩, rfl, rfl⟩
  have refused (number : Int) (large : 0xFFF000 < number) :
      addSub site .add false [register 0, register 1, value number] =
        .error ((AssemblyError.immediateRange number .arithmetic).locatedAt default) := by
    have positive : ¬number < 0 := by omega
    have field : arithmeticField default number none =
        .error ((AssemblyError.immediateRange number .arithmetic).locatedAt default) := by
      rw [arithmeticField, if_neg (by omega), if_neg (by omega)]
      rfl
    show addSubImmediate .add false .w64 0 1 number none default = _
    rw [addSubImmediate, if_neg positive]
    dsimp only
    rw [field]
    rfl
  have lapsed : select (16 ^ 3600 - 1) = .error (.lapse (.limit .printing)) := by
    have large : (0xFFF000 : Int) < 16 ^ 3600 - 1 := by decide +kernel
    have long : ¬Text.PrintableNumber (16 ^ 3600 - 1) := by decide +kernel
    have answer := Trial.follows_iff.mp (Trial.follows_select (.addSub .add false) site
      [register 0, register 1, value (16 ^ 3600 - 1)])
    rw [Mnemonic.select, refused _ large] at answer
    refine answer.trans (congrArg Except.error (if_neg fun printable ↦ long ?_))
    exact List.forall_mem_singleton.mp printable
  refine ⟨accepted.accepted, fun represented ↦ ?_, lapsed⟩
  have refilled : constant.Holds site (value (16 ^ 3600 - 1)) (16 ^ 3600 - 1) := rfl
  obtain ⟨instruction, taken, -⟩ := (accepted.fits refilled).1 represented
  cases lapsed.symm.trans taken

end Gap

end MiniA64
