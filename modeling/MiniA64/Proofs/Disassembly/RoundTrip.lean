import MiniA64.Proofs.Disassembly.Reassembly

/-!
# Assembling the text of a word

The word that is emitted for an instruction statement is decoded to the instruction of the
statement. The text of this instruction is a program of one statement, which stands for the same
instruction wherever it is and is emitted as the same word.
-/

namespace MiniA64

/-! ## Programs of one instruction -/

variable {instruction : Instruction} {text : String}

/-- A text that stands for an instruction is assembled to the word of the instruction. -/
theorem Instruction.Reads.assemble (reads : instruction.Reads text) (assembler : Assembler)
    (file : String) (room : 4 ≤ assembler.limits.capacity)
    (nodes : 6 ≤ assembler.limits.nodes) :
    (assembler.assemble text file).1 = .ok instruction.encode.toBytes := by
  obtain ⟨line, rfl, makes⟩ := reads.exists_line
  have assembled := assembler.assemble_join file (.cons makes .nil) room nodes
  rw [List.flatMap_singleton] at assembled
  rw [← assembled, Line.joinText, List.map_singleton, String.intercalate_singleton]

theorem Sentence.exists_toList_text (sentence : Sentence) :
    ∃ rest, sentence.text.toList = sentence.spelling.toList ++ rest := by
  rw [Sentence.text, Printing.line]
  split
  · exact ⟨[], (List.append_nil _).symm⟩
  · exact ⟨_, by rw [String.toList_append, String.toList_append, List.append_assoc]⟩

/-- A text that stands for an instruction does not begin with a dot, as data does. -/
theorem Instruction.Reads.ne_data (reads : instruction.Reads text) (word : Word) :
    text ≠ Printing.data word := by
  obtain ⟨sentence, rfl, proper, -, -⟩ := reads
  obtain ⟨rest, toList⟩ := sentence.exists_toList_text
  intro same
  rw [same, Printing.data, String.toList_append] at toList
  have spelled := proper.spelled
  cases spelling : sentence.spelling.toList with
  | nil =>
    rw [spelling] at spelled
    cases spelled
  | cons first others =>
    rw [spelling] at toList spelled
    obtain rfl : '.' = first := List.head_eq_of_cons_eq toList
    cases spelled

/-! ## Programs that have been assembled -/

/--
The word of an instruction statement, wherever the statement is in a program that has been
assembled, has the text of an instruction, and this text alone is assembled to the word again.
-/
theorem assemble_text {assembler finished : Assembler} {source file spelling : String}
    {code : List UInt8} {program : Program} {before after : List Statement}
    {statement : Statement} {mnemonic : Mnemonic} {operands : List Operand}
    (assembled : assembler.assemble source file = (.ok code, finished))
    (parsed : Program.parse source file assembler.limits.nodes = .ok program)
    (stands : program.statements = before ++ statement :: after)
    (kind : statement.kind = .instruction mnemonic spelling operands) :
    ∃ placed word,
      Emission.ofStatements assembler.limits finished.symbols before = .ok placed ∧
      placed.code.toList ++ word.toBytes <+: code ∧
      word.text ≠ Printing.data word ∧
      ∀ (other : Assembler) (file : String),
        4 ≤ other.limits.capacity → 6 ≤ other.limits.nodes →
          (other.assemble word.text file).1 = .ok word.toBytes := by
  obtain ⟨_, parsed', ⟨_, emitted⟩, rfl⟩ := Assembler.assemble_ok assembled
  cases parsed.symm.trans parsed'
  rw [stands] at emitted
  obtain ⟨placed, next, split⟩ := Emission.exists_splitAt emitted
  have step := split.statement
  rw [Emission.statement, kind] at step
  obtain ⟨instruction, selected, rfl⟩ := Emission.instruction_ok step
  have member : statement ∈ program.statements := by simp [stands]
  have spelled := Program.spelled_of_parse parsed statement member _ _ _ kind
  have written := Instruction.isWritten_of_select (Mnemonic.ne_branchIf_nv spelled) selected
  obtain ⟨text, shown, reads⟩ := Instruction.exists_text_of_isWritten written
  have same : instruction.encode.text = text := by
    calc instruction.encode.text
      _ = instruction.text?.getD (Printing.data instruction.encode) := by
        rw [Word.text, Instruction.decode_encode]
      _ = text := by rw [shown, Option.getD_some]
  refine ⟨placed, instruction.encode, split.before, ?_, ?_, ?_⟩
  · rw [← Emission.code_append statement.location]
    exact split.code
  · rw [same]
    exact reads.ne_data _
  · rw [same]
    exact fun other file room nodes ↦ reads.assemble other file room nodes

/-- A constant that is added although it is negative, which is shown as a subtraction. -/
theorem assemble_text_negative :
    let assembler := Assembler.new {}
    ∃ code finished program statement mnemonic spelling operands,
      assembler.assemble "add sp, sp, #-0x10" "" = (.ok code, finished) ∧
      Program.parse "add sp, sp, #-0x10" "" assembler.limits.nodes = .ok program ∧
      program.statements = [] ++ statement :: [] ∧
      statement.kind = .instruction mnemonic spelling operands ∧
      ∃ placed word,
        Emission.ofStatements assembler.limits finished.symbols [] = .ok placed ∧
        placed.code.toList ++ word.toBytes <+: code ∧
        word.text ≠ Printing.data word ∧
        ∀ (other : Assembler) (file : String),
          4 ≤ other.limits.capacity → 6 ≤ other.limits.nodes →
            (other.assemble word.text file).1 = .ok word.toBytes := by
  intro assembler
  let subtraction : Instruction :=
    .addSubImmediate .w64 .sub false false 16 Reg.special Reg.special
  have reads : subtraction.Reads "add sp, sp, #-0x10" := by
    refine Instruction.reads_of (.addSub .add false)
      [.stack Reg.special .w64, .stack Reg.special .w64, .immediate (-16)]
      (fun site operands kinds ↦ ?_) rfl rfl rfl
    obtain ⟨s, l, s', l', s'', l'', rfl⟩ := exists_three kinds
    rfl
  have result := reads.assemble assembler "" (by decide) (by decide)
  obtain ⟨sentence, text, proper, few, -⟩ := reads
  have room : ((sentence.operands.length + 2 : Nat) : Int) ≤ 4096 := by omega
  obtain ⟨program, statement, operands, parsed, statements, kind, -⟩ :=
    sentence.parse_text proper "" room
  rw [text] at parsed
  have assembled : assembler.assemble "add sp, sp, #-0x10" "" =
      (.ok subtraction.encode.toBytes, (assembler.assemble "add sp, sp, #-0x10" "").2) := by
    rw [← result]
  exact ⟨_, _, program, statement, _, _, operands, assembled, parsed, statements, kind,
    assemble_text assembled parsed statements kind⟩

end MiniA64
