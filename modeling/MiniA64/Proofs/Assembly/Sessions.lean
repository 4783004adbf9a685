import MiniA64.Assembly.Listing
import MiniA64.Proofs.Assembly.Generation

/-!
# Sessions of one assembler

A generator assembles a source as a new one does, however many sources it has assembled before and
wherever these have failed. What an error leaves behind depends on how far the source has come: one
that has been read leaves no code, and one that cannot be read leaves the code of the source before
it.
-/

namespace MiniA64

/-- What comes of a program that has been read: an answer, the symbols and the emission. -/
def Program.result (limits : Limits) (program : Program) :
    Except Diagnostic Unit × SymbolTable × Emission :=
  match Layout.ofStatements limits program.statements with
  | .error failure => (.error failure.diagnostic, failure.reached.symbols, .empty)
  | .ok layout =>
    match Emission.ofStatements limits layout.symbols program.statements with
    | .error diagnostic => (.error diagnostic, layout.symbols, .empty)
    | .ok emission => (.ok (), layout.symbols, emission)

/-- A program without code has no listing either. -/
theorem Program.result_error {limits : Limits} {program : Program} {diagnostic : Diagnostic}
    (failed : (program.result limits).1 = .error diagnostic) :
    (program.result limits).2.2 = .empty := by
  unfold result at failed ⊢
  split
  · rfl
  · rename_i layout laidOut
    rw [laidOut] at failed
    dsimp only at failed
    split
    · rfl
    · rename_i emission emits
      rw [emits] at failed
      cases failed

namespace Assembler

variable (assembler : Assembler)

/-- What an assembler is after a program, but for what it has noted. -/
def finish (program : Program) (log : List LogRecord) : Assembler :=
  { assembler with
    symbols := (program.result assembler.limits).2.1
    emission := (program.result assembler.limits).2.2
    source := program.source
    log }

/-- Only the limits of an assembler have a part in making the code of a program. -/
theorem generate_eq (program : Program) : ∃ log, assembler.generate program =
    ((program.result assembler.limits).1, assembler.finish program log) := by
  unfold generate finish Program.result
  cases Layout.ofStatements assembler.limits program.statements with
  | error failure => exact ⟨_, rfl⟩
  | ok layout =>
    dsimp only
    obtain ⟨log, noted⟩ := noteUndefined_eq ((assembler.withLayout program.source layout).note
      .debug "armlet.assembler.codegen"
        ("pass 1 complete: " ++ toString layout.size ++ " bytes, " ++
          toString layout.symbols.entries.length ++ " symbols"))
    have limits : ((assembler.withLayout program.source layout).note .debug
      "armlet.assembler.codegen" ("pass 1 complete: " ++ toString layout.size ++ " bytes, " ++
        toString layout.symbols.entries.length ++ " symbols")).limits = assembler.limits := rfl
    simp only [noted, limits]
    cases Emission.ofStatements assembler.limits layout.symbols program.statements with
    | error diagnostic => exact ⟨_, rfl⟩
    | ok emission => exact ⟨_, rfl⟩

/-- A source that cannot be read leaves the assembler as it is. -/
theorem assemble_of_unreadable {source file : String} {diagnostic : Diagnostic}
    (unreadable : Program.parse source file assembler.limits.nodes = .error diagnostic) :
    ∃ log, assembler.assemble source file =
      (.error (diagnostic.locate source), { assembler with log }) := by
  have limits : (assembler.note .debug "armlet.assembler.assembler"
    ("assembling " ++ file)).limits = assembler.limits := rfl
  simp only [assemble, parseAndGenerate, limits, unreadable]
  exact ⟨_, rfl⟩

/-- A source that can be read has the result of its program. -/
theorem assemble_of_read {source file : String} {program : Program}
    (read : Program.parse source file assembler.limits.nodes = .ok program) :
    ∃ log, assembler.assemble source file =
      (match (program.result assembler.limits).1 with
        | .error diagnostic => .error (diagnostic.locate source)
        | .ok _ => .ok (program.result assembler.limits).2.2.code.toList,
        assembler.finish program log) := by
  have limits : (assembler.note .debug "armlet.assembler.assembler"
    ("assembling " ++ file)).limits = assembler.limits := rfl
  obtain ⟨log, generated⟩ : ∃ log, ((assembler.note .debug "armlet.assembler.assembler"
      ("assembling " ++ file)).note .debug "armlet.assembler.assembler"
        ("parsed " ++ toString program.nodes ++ " nodes")).generate program =
      ((program.result assembler.limits).1, assembler.finish program log) := generate_eq _ program
  simp only [assemble, parseAndGenerate, limits, read, generated]
  cases (program.result assembler.limits).1 with
  | error diagnostic => exact ⟨_, rfl⟩
  | ok _ => exact ⟨_, rfl⟩

end Assembler

namespace Generator

section

variable {generator : Generator} {source file : String}

theorem after_unreadable {diagnostic : Diagnostic}
    (unreadable : Program.parse source file generator.limits.nodes = .error diagnostic) :
    (generator.after (assemble source file)).1 = .error (diagnostic.locate source) ∧
      ∃ log, (generator.after (assemble source file)).2.view = { generator.view with log } := by
  have viewed := generator.view_assemble source file
  obtain ⟨log, assembled⟩ := generator.view.assemble_of_unreadable unreadable
  rw [assembled] at viewed
  exact ⟨congrArg Prod.fst viewed, log, congrArg Prod.snd viewed⟩

theorem after_read {program : Program}
    (read : Program.parse source file generator.limits.nodes = .ok program) :
    (generator.after (assemble source file)).1 =
      (match (program.result generator.limits).1 with
        | .error diagnostic => .error (diagnostic.locate source)
        | .ok _ => .ok (program.result generator.limits).2.2.code.toList) ∧
      ∃ log, (generator.after (assemble source file)).2.view =
        generator.view.finish program log := by
  have viewed := generator.view_assemble source file
  obtain ⟨log, assembled⟩ := generator.view.assemble_of_read read
  rw [assembled] at viewed
  exact ⟨congrArg Prod.fst viewed, log, congrArg Prod.snd viewed⟩

/-- The code that is answered is the code that the generator has. -/
theorem code_of_ok {code : List UInt8}
    (done : (generator.after (assemble source file)).1 = .ok code) :
    (generator.after (assemble source file)).2.code.toList = code := by
  cases parsed : Program.parse source file generator.limits.nodes with
  | error diagnostic =>
    rw [(after_unreadable parsed).1] at done
    cases done
  | ok program =>
    obtain ⟨answer, log, shown⟩ := after_read parsed
    rw [answer] at done
    split at done
    · cases done
    · cases done
      exact congrArg (fun assembler ↦ assembler.emission.code.toList) shown

variable (generator source file)

theorem limits_assemble :
    (generator.after (assemble source file)).2.limits = generator.limits := by
  cases parsed : Program.parse source file generator.limits.nodes with
  | error diagnostic =>
    obtain ⟨-, log, shown⟩ := after_unreadable parsed
    exact congrArg Assembler.limits shown
  | ok program =>
    obtain ⟨-, log, shown⟩ := after_read parsed
    exact congrArg Assembler.limits shown

theorem limits_session (sources : List (String × String)) :
    (generator.session sources).limits = generator.limits := by
  induction sources generalizing generator with
  | nil => rfl
  | cons source rest ih => exact (ih _).trans (generator.limits_assemble source.1 source.2)

end

/-- What is left of earlier sources has no part in what a source comes to. -/
theorem assemble_leftover {used fresh : Generator} (same : used.limits = fresh.limits)
    (source file : String) :
    (used.after (assemble source file)).1 = (fresh.after (assemble source file)).1 ∧
      ∀ code, (fresh.after (assemble source file)).1 = .ok code →
        ∃ log, (used.after (assemble source file)).2.view =
          { (fresh.after (assemble source file)).2.view with log } := by
  cases parsed : Program.parse source file fresh.limits.nodes with
  | error diagnostic =>
    obtain ⟨refused, -⟩ := after_unreadable parsed
    obtain ⟨again, -⟩ := after_unreadable (same ▸ parsed)
    refine ⟨again.trans refused.symm, fun code done ↦ ?_⟩
    rw [refused] at done
    cases done
  | ok program =>
    obtain ⟨answer, log, shown⟩ := after_read parsed
    have reparsed : Program.parse source file used.limits.nodes = .ok program := same ▸ parsed
    obtain ⟨again, other, shownAgain⟩ := after_read reparsed
    rw [same] at again
    refine ⟨again.trans answer.symm, fun code _ ↦ ⟨other, ?_⟩⟩
    rw [shownAgain, shown]
    unfold Assembler.finish
    rw [show used.view.limits = fresh.view.limits from same]

/-- After an error no code is left if the source has been read, and else what there was before. -/
theorem code_after_error (limits : Limits) (history : List (String × String))
    (source file : String) {diagnostic : Diagnostic}
    (failed : (((new limits).session history).after (assemble source file)).1 =
      .error diagnostic) :
    let before := (new limits).session history
    let later := (before.after (assemble source file)).2
    ((∃ refused, Program.parse source file limits.nodes = .error refused) ∧
        later.code = before.code ∧ later.listing = before.listing ∧
        later.symbols = before.symbols) ∨
      ((∃ program, Program.parse source file limits.nodes = .ok program) ∧
        later.code = #[] ∧ later.listing = #[]) := by
  intro before later
  have limits_eq : before.limits = limits := limits_session ..
  cases parsed : Program.parse source file limits.nodes with
  | error refused =>
    rw [← limits_eq] at parsed
    obtain ⟨-, log, shown⟩ := after_unreadable parsed
    exact .inl ⟨⟨refused, rfl⟩, congrArg (fun assembler ↦ assembler.emission.code) shown,
      congrArg (fun assembler ↦ assembler.emission.listing) shown,
      congrArg Assembler.symbols shown⟩
  | ok program =>
    rw [← limits_eq] at parsed
    obtain ⟨answer, log, shown⟩ := after_read parsed
    have nothing : (program.result before.limits).2.2 = .empty := by
      cases result : (program.result before.limits).1 with
      | error diagnostic => exact Program.result_error result
      | ok _ =>
        rw [answer, result] at failed
        cases failed
    have dropped : later.view.emission = .empty :=
      (congrArg Assembler.emission shown).trans nothing
    exact .inr ⟨⟨program, rfl⟩, congrArg Emission.code dropped, congrArg Emission.listing dropped⟩

/-- A branch to nowhere can be read, so nothing is left of the source before it. -/
theorem code_after_error_nowhere :
    let before := (new {}).session [("nop", "<input>")]
    let failing := before.after (assemble "b nowhere" "<input>")
    before.code.size = 4 ∧ (∃ diagnostic, failing.1 = .error diagnostic) ∧
      failing.2.code = #[] ∧ failing.2.listing = #[] := by
  intro before failing
  have some : before.code.size = 4 := by decide +kernel
  have fails : failing.1.isOk = false := by decide +kernel
  have reads : (Program.parse "b nowhere" "<input>" ({} : Limits).nodes).isOk = true := by
    decide +kernel
  obtain ⟨diagnostic, failed⟩ : ∃ diagnostic, failing.1 = .error diagnostic := by
    cases answer : failing.1 with
    | error diagnostic => exact ⟨diagnostic, rfl⟩
    | ok code =>
      rw [answer] at fails
      cases fails
  refine ⟨some, ⟨diagnostic, failed⟩, ?_⟩
  obtain ⟨⟨refused, unreadable⟩, -⟩ | ⟨-, dropped⟩ := code_after_error {} _ _ _ failed
  · rw [unreadable] at reads
    cases reads
  · exact dropped

/-- An operand that cannot be read leaves the code and the listing of the source before it. -/
theorem code_after_error_unreadable :
    let before := (new {}).session [("nop", "<input>")]
    let failing := before.after (assemble "mov x0, ]" "<input>")
    failing.1.isOk = false ∧ failing.2.code.toList = [0x1f, 0x20, 0x03, 0xd5] ∧
      failing.2.listing.size = 1 := by
  decide +kernel

end Generator

end MiniA64
