import MiniA64.Proofs.Assembly.Assembled
import MiniA64.Proofs.Assembly.Lines
import MiniA64.Proofs.Disassembly.Selected
import MiniA64.Proofs.Isa.Exactness

/-!
# Assembling a disassembly

Every word is shown in one line, as the instruction that it is decoded to or as data, and the
line is assembled to the word again. So the lines of some code, one below the other, are a
program that is assembled to the code.

Two kinds of words are shown in lines that do not stand for them. A conditional branch with the
condition `nv` is shown by a name that no mnemonic has, and an addition of an extended register
that sets the flags is shown as a pair.
-/

namespace MiniA64

/-! ## Statements that make a word -/

/-- Wherever the statement is, it makes the word and nothing else. -/
structure Statement.Makes (statement : Statement) (word : Word) : Prop where
  laidOut : ∀ (limits : Limits) (layout : Layout), (layout.size + 4 : Nat) ≤ limits.capacity →
    layout.statement limits statement = .ok { layout with size := layout.size + 4 }
  emitted : ∀ (limits : Limits) (symbols : SymbolTable) (emission : Emission),
    (emission.address + 4 : Nat) ≤ limits.capacity → ∃ location,
      emission.statement limits symbols statement = .ok (emission.append location word.toBytes)

/-- The statement of the line makes the word. -/
def Line.Makes (line : Line) (word : Word) : Prop :=
  ∃ nodes ≤ 5, line.Stands nodes fun statement ↦ statement.Makes word

section

variable {limits : Limits} {symbols : SymbolTable} {layout : Layout} {emission : Emission}
  {statement : Statement} {word : Word}

theorem Layout.advance_eq (room : (layout.size + 4 : Nat) ≤ limits.capacity)
    (location : Location) :
    layout.advance limits location 4 = .ok { layout with size := layout.size + 4 } :=
  if_neg (Int.not_lt.mpr room)

theorem Emission.emit_word (room : (emission.address + 4 : Nat) ≤ limits.capacity)
    (location : Location) :
    emission.emit limits location word.toBytes = .ok (emission.append location word.toBytes) := by
  have fits : emission.fits limits word.toBytes.length = true := by
    rw [Word.length_toBytes]
    exact decide_eq_true room
  exact if_pos fits

theorem Statement.makes_instruction {mnemonic : Mnemonic} {spelling : String}
    {operands : List Operand} {instruction : Instruction}
    (kind : statement.kind = .instruction mnemonic spelling operands)
    (selected : ∀ site, mnemonic.select site operands = .ok instruction) :
    statement.Makes instruction.encode where
  laidOut limits layout room := by
    rw [Layout.statement, kind]
    simp only [Layout.advance_eq room]
    rfl
  emitted limits symbols emission room := by
    refine ⟨statement.location, ?_⟩
    rw [Emission.statement, kind]
    refine (congrArg (· >>= _) (selected _)).trans ?_
    exact Emission.emit_word room statement.location

theorem Data.ofValue_word {argument : Operand} (value : argument.kind = .immediate word.toNat) :
    Data.ofValue symbols 4 argument = .ok word.toBytes := by
  have below := word.isLt
  have range : ¬((word.toNat : Int) < -2 ^ (8 * 4 - 1) ∨ 2 ^ (8 * 4) ≤ (word.toNat : Int)) := by
    omega
  have number : ((word.toNat : Int) % 256 ^ 4).toNat = word.toNat := by omega
  rw [ofValue, value]
  simp only [Selection.ok_bind, if_neg range, number, Word.toLittleEndian_toNat]
  rfl

theorem Statement.makes_data {argument : Operand}
    (kind : statement.kind = .directive .word [argument])
    (value : argument.kind = .immediate word.toNat) : statement.Makes word where
  laidOut limits layout room := by
    rw [Layout.statement, kind]
    simp only [Layout.directive, Layout.placeValues, Layout.each, List.isEmpty_cons,
      Bool.false_eq_true, if_false, List.foldlM_cons, List.foldlM_nil, Layout.advance_eq room]
    rfl
  emitted limits symbols emission room := by
    refine ⟨argument.location, ?_⟩
    rw [Emission.statement, kind]
    simp only [Emission.directive, Emission.emitValues, Emission.each, List.isEmpty_cons,
      Bool.false_eq_true, if_false, List.foldlM_cons, List.foldlM_nil, Data.ofValue_word value,
      Selection.ok_bind, Emission.emit_word room]
    rfl

/-! ### Programs of such statements -/

variable {words : List Word} {statements : List Statement}

theorem Layout.ofStatements_of_makes
    (makes : List.Forall₂ (fun word statement ↦ statement.Makes word) words statements)
    (room : (layout.size + 4 * words.length : Nat) ≤ limits.capacity) :
    statements.foldlM (Layout.statement limits) layout =
      .ok { layout with size := layout.size + 4 * words.length } := by
  induction makes generalizing layout with
  | nil => rfl
  | @cons word statement words statements first _ ih =>
    rw [List.length_cons] at room ⊢
    rw [List.foldlM_cons, first.laidOut limits layout (by omega), Selection.ok_bind,
      ih (by dsimp only; omega)]
    dsimp only
    rw [Nat.add_assoc, Nat.mul_succ, Nat.add_comm 4]

theorem Emission.ofStatements_of_makes
    (makes : List.Forall₂ (fun word statement ↦ statement.Makes word) words statements)
    (room : (emission.address + 4 * words.length : Nat) ≤ limits.capacity) :
    ∃ last, statements.foldlM (Emission.statement limits symbols) emission = .ok last ∧
      last.code.toList = emission.code.toList ++ words.flatMap Word.toBytes := by
  induction makes generalizing emission with
  | nil => exact ⟨emission, rfl, by simp⟩
  | @cons word statement words statements first _ ih =>
    rw [List.length_cons] at room
    obtain ⟨location, step⟩ := first.emitted limits symbols emission (by omega)
    obtain ⟨last, walk, code⟩ := @ih (emission.append location word.toBytes) (by
      rw [Emission.address_append, Word.length_toBytes]
      omega)
    refine ⟨last, ?_, ?_⟩
    · rw [List.foldlM_cons, step, Selection.ok_bind, walk]
    · rw [code, Emission.code_append, List.flatMap_cons, List.append_assoc]

/-- Lines whose statements make words are assembled to the words. -/
theorem Assembler.assemble_join {lines : List Line} (assembler : Assembler) (file : String)
    (makes : List.Forall₂ (fun word line ↦ line.Makes word) words lines)
    (room : (4 * words.length : Nat) ≤ assembler.limits.capacity)
    (nodes : (5 * words.length + 1 : Nat) ≤ assembler.limits.nodes) :
    (assembler.assemble (Line.joinText lines) file).1 = .ok (words.flatMap Word.toBytes) := by
  obtain ⟨program, parsed, made⟩ := Line.parse_join makes file nodes
  have laidOut := @Layout.ofStatements_of_makes assembler.limits .empty words _ made (by
    rw [show Layout.empty.size = 0 from rfl, Nat.zero_add]
    exact room)
  obtain ⟨last, emitted, code⟩ := @Emission.ofStatements_of_makes assembler.limits
    Layout.empty.symbols .empty words _ made (by
      rw [show Emission.empty.address = 0 from rfl, Nat.zero_add]
      exact room)
  rw [Assembler.assemble_of_ok parsed laidOut emitted, code]
  rfl

end

/-- The line of an instruction, as it is printed, makes the word of the instruction. -/
theorem Instruction.Reads.exists_line {instruction : Instruction} {text : String}
    (reads : instruction.Reads text) :
    ∃ line : Line, line.text = text ∧ line.Makes instruction.encode := by
  obtain ⟨sentence, rfl, proper, few, names⟩ := reads
  refine ⟨sentence.line proper.spelled, rfl, _, Nat.succ_le_succ few, fun ends ↦ ?_⟩
  refine (sentence.stands proper ends).mono fun result found ↦ ?_
  obtain ⟨statement, rfl, operands, kind, kinds⟩ := found
  exact ⟨statement, rfl,
    Statement.makes_instruction kind fun site ↦ names site operands kinds⟩

namespace Word

theorem makes_dataLine (word : Word) : word.dataLine.Makes word := by
  refine ⟨2, Nat.le_of_ble_eq_true rfl, fun ends ↦ ?_⟩
  refine (yields_data word.toNat ends).mono fun result found ↦ ?_
  obtain ⟨statement, rfl, argument, kind, value⟩ := found
  exact ⟨statement, rfl, Statement.makes_data kind value⟩

/-! ## Words and their lines -/

/-- The word is a conditional branch with the condition that no mnemonic has. -/
def isBranchNever (word : Word) : Bool :=
  word.field 24 8 = 0x54 && !word.bit 4 && word.field 0 4 = Condition.nv.code

/-- The word that the line of a word stands for. -/
def shown (word : Word) : Word :=
  match decode word with
  | .ok instruction => if instruction.text?.isSome then instruction.encode else word
  | .error _ => word

theorem shown_eq {word : Word} (ordinary : word.isExtendedAdd = false) : word.shown = word := by
  unfold shown
  split
  · rename_i instruction decoded
    split
    · exact Instruction.encode_of_decode decoded ordinary
    · rfl
  · rfl

theorem isSome_pair {width : Width} {load : Bool} {mode : PairMode} {offset : BitVec 7}
    {rt2 rn rt : Reg} (written : mode ≠ .plainOffset) :
    (Instruction.pair width load mode offset rt2 rn rt).text?.isSome = true := by
  cases mode with
  | plainOffset => exact absurd rfl written
  | postIndex | offset | preIndex => rfl

/-- An addition of an extended register is shown as a pair. -/
theorem shown_ne {word : Word} (extended : word.isExtendedAdd = true) : word.shown ≠ word := by
  obtain ⟨mode, offset, rt2, rn, rt, written, decoded⟩ :=
    Decoding.decode_of_isExtendedAdd extended
  have pair : word.shown =
      (Instruction.pair (Decoding.width word) (word.bit 22) mode offset rt2 rn rt).encode := by
    simp only [shown, decoded, isSome_pair written, if_true]
  have zero : (Instruction.pair (Decoding.width word) (word.bit 22) mode offset rt2 rn
      rt).encode.field 25 1 = 0 := by
    simp (disch := decide) only [Instruction.encode, field, BitVec.extractLsb'_append_eq_of_le,
      BitVec.extractLsb'_append_eq_of_add_le, -Nat.reduceAdd, -Nat.reduceSub]
    simp
  have one : word.field 25 1 = 1 := by
    have family : word.field 24 7 = 0b0101011 :=
      of_decide_eq_true (Bool.and_eq_true_iff.mp extended).1
    rw [← @extractLsb'_field word 24 7 1 1 (by decide), family]
    rfl
  intro same
  rw [← pair, same, one] at zero
  exact absurd zero (by decide)

theorem isBranchNever_encode (offset : BitVec 19) :
    (Instruction.branchIf .nv offset).encode.isBranchNever = true := by
  simp (disch := decide) only [isBranchNever, Instruction.encode, field, bit,
    BitVec.extractLsb'_append_eq_of_le, BitVec.extractLsb'_append_eq_of_add_le,
    getLsbD_append_high, getLsbD_append_low, -Nat.reduceAdd, -Nat.reduceSub]
  simp

/-- A word that is shown by an instruction is shown by one that a statement can have. -/
theorem isWritten_of_text? {word : Word} {instruction : Instruction} {text : String}
    (decoded : decode word = .ok instruction) (text? : instruction.text? = some text)
    (known : word.isBranchNever = false) : instruction.isWritten = true := by
  unfold Instruction.isWritten
  split
  · rename_i offset
    cases extended : word.isExtendedAdd with
    | true =>
      obtain ⟨_, _, _, _, _, -, pair⟩ := Decoding.decode_of_isExtendedAdd extended
      cases decoded.symm.trans pair
    | false =>
      rw [← Instruction.encode_of_decode decoded extended, isBranchNever_encode] at known
      cases known
  · rw [text?]
    rfl

/-- A word that has a mnemonic, or none at all, is shown in a line that stands for a word. -/
theorem exists_line {word : Word} (known : word.isBranchNever = false) :
    ∃ line : Line, line.text = word.text ∧ line.Makes word.shown := by
  have data (text : word.text = Printing.data word) (same : word.shown = word) :
      ∃ line : Line, line.text = word.text ∧ line.Makes word.shown := by
    refine ⟨word.dataLine, text.symm, ?_⟩
    rw [same]
    exact word.makes_dataLine
  cases decoded : decode word with
  | error =>
    apply data
    · rw [text, decoded]
    · rw [shown, decoded]
  | ok instruction =>
    have text : word.text = instruction.text?.getD (Printing.data word) := by
      rw [Word.text, decoded]
    cases text? : instruction.text? with
    | none =>
      apply data
      · rw [text, text?, Option.getD_none]
      · simp [shown, decoded, text?]
    | some written =>
      obtain ⟨_, text', reads⟩ := Instruction.exists_text_of_isWritten
        (isWritten_of_text? decoded text? known)
      obtain ⟨line, rfl, makes⟩ := reads.exists_line
      refine ⟨line, ?_, ?_⟩
      · rw [text, text', Option.getD_some]
      · simpa [shown, decoded, text?] using makes

/-- The line of a branch that no mnemonic has is refused. -/
theorem exists_line_refused {word : Word} (never : word.isBranchNever = true) :
    ∃ line : Line, line.text = word.text ∧
      ∀ rest, Parser.Refuses Grammar.statement? (line.tokens ++ rest) 0 := by
  obtain ⟨pattern, condition⟩ := Bool.and_eq_true_iff.mp never
  obtain ⟨family, clear⟩ := Bool.and_eq_true_iff.mp pattern
  have decoded := Decoding.decode_of_branchIf (of_decide_eq_true family)
    (by simpa using clear)
  rw [of_decide_eq_true condition, Condition.ofCode_code] at decoded
  let displacement := (word.field 5 19).toInt * 4
  let sentence : Sentence := ⟨.branchIf .nv, "b.nv", [.immediate displacement]⟩
  have spelled : Lexeme.isSpelling "b.nv".toList = true := by decide
  have unknown : Mnemonic.ofSpelling? "b.nv" = none := by decide
  refine ⟨sentence.line spelled, ?_, fun rest ↦ Line.refuses_name unknown (by simp) _⟩
  rw [text, decoded]
  rfl

/-- Words that have a mnemonic, or none at all, are shown in lines that stand for words. -/
theorem exists_lines {words : List Word}
    (known : ∀ word ∈ words, word.isBranchNever = false) :
    ∃ lines : List Line, lines.map Line.text = words.map text ∧
      List.Forall₂ (fun word line ↦ line.Makes word) (words.map shown) lines := by
  induction words with
  | nil => exact ⟨[], rfl, .nil⟩
  | cons word words ih =>
    obtain ⟨line, text, makes⟩ := exists_line (known word List.mem_cons_self)
    obtain ⟨lines, texts, others⟩ := ih fun other member ↦
      known other (List.mem_cons_of_mem _ member)
    refine ⟨line :: lines, ?_, .cons makes others⟩
    rw [List.map_cons, List.map_cons, text, texts]

theorem exists_lines_text (words : List Word) :
    ∃ lines : List Line, lines.map Line.text = words.map text := by
  induction words with
  | nil => exact ⟨[], rfl⟩
  | cons word words ih =>
    obtain ⟨lines, texts⟩ := ih
    have some : ∃ line : Line, line.text = word.text := by
      cases never : word.isBranchNever with
      | true =>
        obtain ⟨line, text, -⟩ := exists_line_refused never
        exact ⟨line, text⟩
      | false =>
        obtain ⟨line, text, -⟩ := exists_line never
        exact ⟨line, text⟩
    obtain ⟨line, text⟩ := some
    refine ⟨line :: lines, ?_⟩
    rw [List.map_cons, List.map_cons, text, texts]

end Word

/-! ## Lines of words -/

section

variable {words : List Word} (assembler : Assembler) (file : String)

/-- The lines of some words, one below the other, are assembled to what they stand for. -/
theorem assemble_known (known : ∀ word ∈ words, word.isBranchNever = false)
    (room : (4 * words.length : Nat) ≤ assembler.limits.capacity)
    (nodes : (5 * words.length + 1 : Nat) ≤ assembler.limits.nodes) :
    (assembler.assemble ("\n".intercalate (words.map Word.text)) file).1 =
      .ok ((words.map Word.shown).flatMap Word.toBytes) := by
  obtain ⟨lines, texts, makes⟩ := Word.exists_lines known
  rw [← texts]
  exact assembler.assemble_join file makes (by rw [List.length_map]; exact room)
    (by rw [List.length_map]; exact nodes)

/-- They are not assembled at all if one of them is refused. -/
theorem assemble_never (never : ∃ word ∈ words, word.isBranchNever = true)
    (nodes : (5 * words.length + 1 : Nat) ≤ assembler.limits.nodes) :
    ∃ error, (assembler.assemble ("\n".intercalate (words.map Word.text)) file).1 =
      .error error := by
  obtain ⟨first, found⟩ := Option.isSome_iff_exists.mp (List.find?_isSome.mpr never)
  obtain ⟨first', before, after, rfl, known⟩ := List.find?_eq_some_iff_append.mp found
  obtain ⟨lines, texts, makes⟩ := @Word.exists_lines before fun word member ↦ by
    simpa using known word member
  obtain ⟨line, text, refused⟩ := Word.exists_line_refused first'
  obtain ⟨others, otherTexts⟩ := Word.exists_lines_text after
  obtain ⟨error, parsed⟩ := @Line.parse_refused _ _ _ _ _ makes line refused others file
    assembler.limits.nodes (by
      rw [List.length_map]
      rw [List.length_append] at nodes
      omega)
  have joined : Line.joinText (lines ++ line :: others) =
      "\n".intercalate ((before ++ first :: after).map Word.text) := by
    rw [Line.joinText, List.map_append, List.map_cons, texts, text, otherTexts, List.map_append,
      List.map_cons]
  rw [joined] at parsed
  exact ⟨_, Assembler.assemble_of_error parsed⟩

/--
The lines that show some words, one below the other, are assembled to these words if and only if
none of the words is one of the two kinds.
-/
theorem assemble_texts (words : List Word)
    (room : (4 * words.length : Nat) ≤ assembler.limits.capacity)
    (nodes : (5 * words.length + 1 : Nat) ≤ assembler.limits.nodes) :
    (assembler.assemble ("\n".intercalate (words.map Word.text)) file).1 =
        .ok (words.flatMap Word.toBytes) ↔
      ∀ word ∈ words, word.isExtendedAdd = false ∧ word.isBranchNever = false := by
  by_cases never : ∃ word ∈ words, word.isBranchNever = true
  · obtain ⟨error, refused⟩ := assemble_never assembler file never nodes
    rw [refused]
    constructor
    · intro same
      cases same
    · intro shown
      obtain ⟨word, member, never⟩ := never
      exact absurd ((shown word member).2.symm.trans never) Bool.false_ne_true
  · have known : ∀ word ∈ words, word.isBranchNever = false := by
      intro word member
      exact Bool.eq_false_iff.mpr fun set ↦ never ⟨word, member, set⟩
    rw [assemble_known assembler file known room nodes]
    constructor
    · intro same word member
      have words' := congrArg Word.listOfBytes (Except.ok.inj same)
      rw [Word.listOfBytes_flatMap, Word.listOfBytes_flatMap] at words'
      have shown : word.shown = word :=
        List.map_inj_left.mp (words'.trans (List.map_id words).symm) word member
      refine ⟨?_, known word member⟩
      exact Bool.eq_false_iff.mpr fun extended ↦ Word.shown_ne extended shown
    · intro ordinary
      have words' : words.map Word.shown = words.map id :=
        List.map_inj_left.mpr fun word member ↦ Word.shown_eq (ordinary word member).1
      rw [words', List.map_id]

/-- An instruction and a word that is none are shown in lines that are assembled to them. -/
theorem assemble_texts_add :
    let assembler := Assembler.new {}
    let words : List Word := [0x8b020020, 0xffffffff]
    (4 * words.length : Nat) ≤ assembler.limits.capacity ∧
      (5 * words.length + 1 : Nat) ≤ assembler.limits.nodes ∧
      (assembler.assemble ("\n".intercalate (words.map Word.text)) "").1 =
        .ok (words.flatMap Word.toBytes) := by
  intro assembler words
  have room : (4 * words.length : Nat) ≤ assembler.limits.capacity := by decide
  have nodes : (5 * words.length + 1 : Nat) ≤ assembler.limits.nodes := by decide
  have shown : ∀ word ∈ words, word.isExtendedAdd = false ∧ word.isBranchNever = false :=
    List.forall_mem_cons.mpr ⟨by decide, List.forall_mem_singleton.mpr (by decide)⟩
  exact ⟨room, nodes, (assemble_texts assembler "" words room nodes).mpr shown⟩

/-- A branch that is shown by a name that is no mnemonic, and an addition shown as a pair. -/
theorem assemble_texts_never_extended :
    let assembler := Assembler.new {}
    let branch : Word := 0x5400000f
    let addition : Word := 0x2b220020
    (∃ error, (assembler.assemble branch.text "").1 = .error error) ∧
      ∃ other, other ≠ addition ∧
        (assembler.assemble addition.text "").1 = .ok other.toBytes := by
  intro assembler branch addition
  constructor
  · have refused := @assemble_never [branch] assembler "" ⟨branch, by decide, by decide⟩
      (by decide)
    rwa [List.map_singleton, String.intercalate_singleton] at refused
  · have known : ∀ word ∈ [addition], word.isBranchNever = false :=
      List.forall_mem_singleton.mpr (by decide)
    have assembled := assemble_known assembler "" known (by decide) (by decide)
    rw [List.map_singleton, String.intercalate_singleton, List.map_singleton,
      List.flatMap_singleton] at assembled
    exact ⟨addition.shown, Word.shown_ne (by decide), assembled⟩

end

end MiniA64
