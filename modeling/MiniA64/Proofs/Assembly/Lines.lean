import Mathlib.Data.List.Forall2
import MiniA64.Proofs.Assembly.Writing

/-!
# Programs of one statement a line

A line is a text with the tokens that it is read as. Lines one below the other are read as their
tokens with the ends of the lines in between. If each of them is parsed to a statement, they are a
program of these statements, and if one of them is refused, the whole text is. Three kinds of lines
are made here: an instruction as it is printed, a directive with one argument, and a word as data.
-/

namespace MiniA64

open Lexeme MiniA64.Parser Sentence

structure Line where
  text : String
  tokens : List TokenKind
  read : Open text.toList tokens

namespace Line

/-! ## Lines one below the other -/

/-- The tokens of lines, with the end of every line but the last one. -/
def join : List Line → List TokenKind
  | [] => []
  | [line] => line.tokens
  | line :: second :: rest => line.tokens ++ .newline :: join (second :: rest)

def joinText (lines : List Line) : String := "\n".intercalate (lines.map text)

theorem lexes_join (lines : List Line) :
    Lexes (joinText lines).toList (join lines ++ [.endOfInput]) := by
  induction lines with
  | nil => exact lexes_nil
  | cons line rest ih =>
    cases rest with
    | nil =>
      have read := line.read [] [.endOfInput] ends_nil lexes_nil
      rw [List.append_nil] at read
      rw [joinText, List.map_singleton, String.intercalate_singleton]
      exact read
    | cons second rest =>
      have newline : Mark ['\n'] [.newline] := mark_punctuation (by simp)
      have read := line.read _ _ (ends_cons (by decide) (by decide) _) (newline _ _ trivial ih)
      have text : (joinText (line :: second :: rest)).toList =
          line.text.toList ++ '\n' :: (joinText (second :: rest)).toList := by
        rw [joinText, List.map_cons, List.map_cons, String.intercalate_cons_cons,
          String.toList_append, String.toList_append, List.append_assoc]
        rfl
      rw [text, join, List.append_assoc]
      exact read

/-- A line ends where the next one begins or where the input ends. -/
theorem exists_ending (line : Line) (rest : List Line) :
    ∃ ending, join (line :: rest) = line.tokens ++ ending ++ join rest ∧
      Ending ending (join rest ++ [.endOfInput]) := by
  cases rest with
  | nil => exact ⟨[], by simp [join], .input []⟩
  | cons second rest => exact ⟨[.newline], by simp [join], .newline _⟩

/-- Wherever the line is, it is parsed to a good statement. -/
def Stands (line : Line) (nodes : Nat) (good : Statement → Prop) : Prop :=
  ∀ {ending after : List TokenKind}, Ending ending after →
    Yields Grammar.statement? (line.tokens ++ ending) after nodes fun result ↦
      ∃ statement, result = some (some statement) ∧ good statement

section

variable {α : Type} {items : List α} {lines : List Line} {good : α → Statement → Prop}
  {most : Nat}

/-- Lines are parsed to their statements one after the other. -/
theorem yields_join
    (stand : List.Forall₂ (fun item line ↦ ∃ nodes ≤ most, line.Stands nodes (good item)) items
      lines) :
    ∃ nodes ≤ most * items.length,
      Yields (many Grammar.statement? Grammar.statement?_consumes) (join lines) [.endOfInput]
        nodes fun results ↦ ∃ statements, results = statements.map some ∧
          List.Forall₂ good items statements := by
  induction stand with
  | nil =>
    refine ⟨0, Nat.zero_le _, yields_end.manyNone.mono fun results none ↦ ?_⟩
    exact ⟨[], none, .nil⟩
  | @cons item line items lines stands _ ih =>
    obtain ⟨nodes, few, stands⟩ := stands
    obtain ⟨others, fewOthers, rest⟩ := ih
    obtain ⟨ending, split, ends⟩ := exists_ending line lines
    have first : Yields Grammar.statement? (line.tokens ++ ending)
        (join lines ++ [.endOfInput]) nodes fun result ↦ ∃ found, result = some found ∧
          ∃ statement, found = some statement ∧ good item statement := by
      refine (stands ends).mono fun result found ↦ ?_
      obtain ⟨statement, rfl, hgood⟩ := found
      exact ⟨some statement, rfl, statement, rfl, hgood⟩
    refine ⟨nodes + others, ?_, ?_⟩
    · rw [List.length_cons, Nat.mul_succ]
      omega
    · rw [split]
      refine (first.manySome rest).mono fun results found ↦ ?_
      obtain ⟨_, _, rfl, ⟨statement, rfl, hgood⟩, statements, rfl, all⟩ := found
      exact ⟨statement :: statements, rfl, .cons hgood all⟩

theorem map_kind_tokens (lines : List Line) (file : String) :
    ((Cursor.start (joinText lines) 1).tokens file).map (·.kind) = join lines ++ [.endOfInput] :=
  Cursor.kinds_tokens (lexes_join lines) file _ rfl

/-- Lines one below the other are a program of their statements. -/
theorem parse_join
    (stand : List.Forall₂ (fun item line ↦ ∃ nodes ≤ most, line.Stands nodes (good item)) items
      lines)
    (file : String) {capacity : Int} (room : (most * items.length + 1 : Nat) ≤ capacity) :
    ∃ program, Program.parse (joinText lines) file capacity = .ok program ∧
      List.Forall₂ good items program.statements := by
  obtain ⟨nodes, few, yields⟩ := yields_join stand
  have parsed : Yields (Grammar.program file) (join lines) [.endOfInput] (nodes + 1) fun result ↦
      List.Forall₂ good items result.2 := by
    refine .allocate fun root ↦ yields.map fun results found ↦ ?_
    obtain ⟨statements, rfl, all⟩ := found
    refine yields_pure ?_
    simpa [List.filterMap_map] using all
  obtain ⟨⟨root, statements⟩, left, step, -, all⟩ :=
    parsed ⟨_, ⟨capacity, 0⟩⟩ (map_kind_tokens lines file) (by
      show ((0 + (nodes + 1) : Nat) : Int) ≤ capacity
      omega)
  refine ⟨⟨joinText lines, file, root, statements, 0 + (nodes + 1)⟩, ?_, all⟩
  unfold Program.parse
  simp only [StateT.run, step]

/-- A line by itself is a program of one statement. -/
theorem parse_single {line : Line} {nodes : Nat} {good : Statement → Prop}
    (stands : line.Stands nodes good) (file : String) {capacity : Int}
    (room : (nodes + 1 : Nat) ≤ capacity) :
    ∃ program statement, Program.parse line.text file capacity = .ok program ∧
      program.statements = [statement] ∧ good statement := by
  have one : List.Forall₂ (fun _ line ↦ ∃ few ≤ nodes, Stands line few good) [()] [line] :=
    .cons ⟨nodes, Nat.le_refl nodes, stands⟩ .nil
  have fits : (nodes * [()].length + 1 : Nat) ≤ capacity := by
    rw [List.length_singleton, Nat.mul_one]
    exact room
  obtain ⟨program, parsed, all⟩ := parse_join one file fits
  obtain ⟨statement, _, hgood, none, statements⟩ := List.forall₂_cons_left_iff.mp all
  cases none
  rw [joinText, List.map_singleton, String.intercalate_singleton] at parsed
  exact ⟨program, statement, parsed, statements, hgood⟩

/-! ### A line that is refused -/

/-- Every line but the last one is read with its end. -/
theorem exists_join_append (before : List Line) (line : Line) (after : List Line) :
    ∃ rest, join (before ++ line :: after) =
      before.flatMap (fun line ↦ line.tokens ++ [.newline]) ++ (line.tokens ++ rest) := by
  induction before with
  | nil =>
    obtain ⟨ending, split, -⟩ := exists_ending line after
    exact ⟨ending ++ join after, by rw [List.nil_append, split, List.append_assoc]; rfl⟩
  | cons first before ih =>
    obtain ⟨rest, split⟩ := ih
    refine ⟨rest, ?_⟩
    have newline : join (first :: before ++ line :: after) =
        first.tokens ++ .newline :: join (before ++ line :: after) := by
      cases before <;> rfl
    rw [newline, split, List.flatMap_cons]
    simp

theorem refuses_join {tokens : List TokenKind}
    (stand : List.Forall₂ (fun item line ↦ ∃ nodes ≤ most, line.Stands nodes (good item)) items
      lines)
    (refused : Refuses Grammar.statement? tokens 0) :
    ∃ nodes ≤ most * items.length,
      Refuses (many Grammar.statement? Grammar.statement?_consumes)
        (lines.flatMap (fun line ↦ line.tokens ++ [.newline]) ++ tokens) nodes := by
  induction stand with
  | nil => exact ⟨0, Nat.zero_le _, refused.many⟩
  | @cons item line items lines stands _ ih =>
    obtain ⟨nodes, few, stands⟩ := stands
    obtain ⟨others, fewOthers, rest⟩ := ih
    let others' := lines.flatMap (fun line ↦ line.tokens ++ [.newline]) ++ tokens
    have first : Yields Grammar.statement? (line.tokens ++ [.newline]) others' nodes
        fun result ↦ ∃ found, result = some found := by
      refine (stands (.newline others')).mono fun result found ↦ ?_
      obtain ⟨statement, rfl, -⟩ := found
      exact ⟨some statement, rfl⟩
    refine ⟨nodes + others, ?_, ?_⟩
    · rw [List.length_cons, Nat.mul_succ]
      omega
    · rw [List.flatMap_cons, List.append_assoc]
      exact first.manyRefuses rest

/-- Lines are no program if one of them is refused, whatever comes after it. -/
theorem parse_refused
    (stand : List.Forall₂ (fun item line ↦ ∃ nodes ≤ most, line.Stands nodes (good item)) items
      lines)
    {line : Line} (refused : ∀ rest, Refuses Grammar.statement? (line.tokens ++ rest) 0)
    (after : List Line) (file : String) {capacity : Int}
    (room : (most * items.length + 1 : Nat) ≤ capacity) :
    ∃ error, Program.parse (joinText (lines ++ line :: after)) file capacity = .error error := by
  obtain ⟨rest, split⟩ := exists_join_append lines line after
  obtain ⟨nodes, few, refuses⟩ := refuses_join stand (refused (rest ++ [.endOfInput]))
  have tokens := map_kind_tokens (lines ++ line :: after) file
  rw [split, List.append_assoc, List.append_assoc] at tokens
  have program : Refuses (Grammar.program file) _ (nodes + 1) :=
    .allocate fun root ↦ refuses.bind
  obtain ⟨error, step⟩ := program ⟨_, ⟨capacity, 0⟩⟩ tokens (by
    show ((0 + (nodes + 1) : Nat) : Int) ≤ capacity
    omega)
  unfold Program.parse
  simp only [StateT.run, step]
  split <;> exact ⟨_, rfl⟩

/-- A name that is no mnemonic begins a statement only as a label. -/
theorem refuses_name {name : String} (unknown : Mnemonic.ofSpelling? name = none)
    {next : TokenKind} (notColon : next ≠ .colon) (rest : List TokenKind) :
    Refuses Grammar.statement? (.identifier name :: next :: rest) 0 := by
  refine .current fun first here ↦ .following ?_
  simp only [here]
  refine .advance rfl (.bind ?_)
  have named : Grammar.namedStatement first name next = Grammar.instruction first name := by
    unfold Grammar.namedStatement
    split
    · exact absurd rfl notColon
    · rfl
  rw [named, Grammar.instruction, unknown]
  exact refuses_refuse _ _

end

end Line

/-! ## A line for an instruction -/

namespace Sentence

def line (sentence : Sentence) (spelled : isSpelling sentence.spelling.toList = true) : Line where
  text := sentence.text
  tokens := sentence.tokens
  read := sentence.open_text spelled

theorem stands (sentence : Sentence) (proper : sentence.Proper) :
    (sentence.line proper.spelled).Stands (sentence.operands.length + 1) fun statement ↦
      ∃ operands, statement.kind = .instruction sentence.mnemonic sentence.spelling operands ∧
        operands.map (·.kind) = sentence.operands.map Written.kind :=
  sentence.yields_statement proper

/-- The text of a statement is a program of this one statement. -/
theorem parse_text (sentence : Sentence) (proper : sentence.Proper) (file : String)
    {capacity : Int} (room : (sentence.operands.length + 2 : Nat) ≤ capacity) :
    ∃ program statement operands,
      Program.parse sentence.text file capacity = .ok program ∧
      program.statements = [statement] ∧
      statement.kind = .instruction sentence.mnemonic sentence.spelling operands ∧
      operands.map (·.kind) = sentence.operands.map Written.kind := by
  obtain ⟨program, statement, parsed, statements, operands, found⟩ :=
    Line.parse_single (sentence.stands proper) file room
  exact ⟨program, statement, operands, parsed, statements, found⟩

end Sentence

/-! ## A line for a directive -/

namespace Directive

theorem ofSpelling?_name (directive : Directive) :
    ofSpelling? directive.name = some directive := by
  cases directive <;> decide

theorem isSpelling_name (directive : Directive) : isSpelling directive.name.toList = true := by
  cases directive <;> decide

theorem open_single (directive : Directive) {argument : String} {kinds : List TokenKind}
    (read : Open argument.toList kinds) :
    Open ("." ++ directive.name ++ " " ++ argument).toList
      (.dot :: .identifier directive.name :: kinds) := by
  have dot : Mark ['.'] [.dot] := mark_punctuation (by simp)
  have name := Written.open_name directive.isSpelling_name
  have spaced := mark_blank.append read fun _ _ ↦ trivial
  have tail := name.append spaced fun rest _ ↦ ends_cons (by decide) (by decide) _
  have text : ("." ++ directive.name ++ " " ++ argument).toList =
      ['.'] ++ (directive.name.toList ++ ([' '] ++ argument.toList)) := by
    simp
  rw [text]
  exact dot.append tail fun _ _ ↦ trivial

def line (directive : Directive) {argument : String} {kind : TokenKind}
    (read : Open argument.toList [kind]) : Line where
  text := "." ++ directive.name ++ " " ++ argument
  tokens := [.dot, .identifier directive.name, kind]
  read := directive.open_single read

variable {kind : TokenKind} {ending after : List TokenKind} {good : OperandKind → Prop}

/-- A directive with one argument, which is a single token. -/
theorem yields_statement (directive : Directive) (notNewline : kind ≠ .newline)
    (notEnd : kind ≠ .endOfInput)
    (taken : ∀ token : Token, token.kind = kind → ∀ after,
      Yields (Grammar.argumentKind token) [kind] after 0 good)
    (ends : Ending ending after) :
    Yields Grammar.statement? ([.dot, .identifier directive.name, kind] ++ ending) after 2
      fun result ↦ ∃ statement, result = some (some statement) ∧ ∃ argument,
        statement.kind = .directive directive [argument] ∧ good argument.kind := by
  have name : Yields Grammar.directiveName [.identifier directive.name]
      ([kind] ++ ending ++ after) 0 (· = directive) := by
    refine .current rfl fun token here ↦ ?_
    have spelling : Yields (Parser.identifier .directiveName) [.identifier directive.name]
        ([kind] ++ ending ++ after) 0 (· = directive.name) := by
      refine .current rfl fun token here ↦ ?_
      simp only [here]
      exact .advance rfl (yields_pure rfl)
    refine spelling.map fun found hfound ↦ ?_
    rw [hfound, ofSpelling?_name]
    exact yields_pure rfl
  have argument (after : List TokenKind) :
      Yields Grammar.argument [kind] after 1 fun argument ↦ good argument.kind :=
    .current rfl fun token here ↦ (taken token here after).node fun _ _ hgood ↦ hgood
  have arguments : Yields (Grammar.operandList Grammar.argument Grammar.argument_shrinks) [kind]
      (ending ++ after) 1 fun arguments ↦ ∃ argument,
        arguments = [argument] ∧ good argument.kind := by
    obtain ⟨stop, rest, split, stops⟩ := ends.stop
    have last : stop ≠ .comma := by rcases stops with rfl | rfl <;> simp
    rw [split]
    refine .current rfl fun token here ↦ ?_
    split
    · rename_i newline
      exact absurd (here.symm.trans newline) notNewline
    · rename_i end'
      exact absurd (here.symm.trans end') notEnd
    · exact yields_single _ last (argument _)
  have whole (dot : Token) : Yields (Grammar.directive dot)
      ([.identifier directive.name, kind] ++ ending) after (1 + 1) fun statement ↦ ∃ argument,
        statement.kind = .directive directive [argument] ∧ good argument.kind := by
    refine name.andThen fun found hfound ↦ ?_
    subst hfound
    refine arguments.bind fun arguments hfound ↦ ?_
    refine .allocate fun slot ↦ (yields_endOfStatement ends).map fun _ _ ↦ ?_
    obtain ⟨argument, rfl, hgood⟩ := hfound
    exact yields_pure ⟨argument, rfl, hgood⟩
  refine .current rfl fun dot here ↦ .followingAny fun next ↦ ?_
  simp only [here]
  refine .advance rfl ((whole dot).map fun statement found ↦ ?_)
  exact yields_pure ⟨statement, rfl, found⟩

end Directive

/-! ## A line for a word as data -/

namespace Word

theorem open_data (word : Word) :
    Open (Printing.data word).toList [.dot, .identifier "word", .number word.toNat] := by
  let digits := Text.padLeft 8 (Text.lowerDigits word.toNat)
  have number : Open ("0x" ++ digits).toList [.number word.toNat] := by
    have denotes := denotes_hexadecimal (8 - (Text.lowerDigits word.toNat).length) word.toNat
    have text : ("0x" ++ digits).toList = '0' :: 'x' ::
        (List.replicate (8 - (Text.lowerDigits word.toNat).length) '0' ++
          Nat.toDigits 16 word.toNat) := by
      simp [digits, Text.padLeft, Text.lowerDigits]
    rw [text]
    exact piece_number denotes false
  have text : Printing.data word = "." ++ Directive.word.name ++ " " ++ ("0x" ++ digits) := by
    rw [← String.append_assoc]
    rfl
  rw [text]
  exact Directive.word.open_single number

theorem yields_argumentKind {value : Int} {token : Token} (here : token.kind = .number value)
    (after : List TokenKind) :
    Yields (Grammar.argumentKind token) [.number value] after 0 (· = .immediate value) := by
  rw [Grammar.argumentKind]
  simp only [here]
  exact (yields_signedNumber value _).map fun result h ↦ yields_pure (by rw [h])

theorem yields_data {ending after : List TokenKind} (value : Int) (ends : Ending ending after) :
    Yields Grammar.statement? ([.dot, .identifier "word", .number value] ++ ending) after 2
      fun result ↦ ∃ statement, result = some (some statement) ∧ ∃ argument,
        statement.kind = .directive .word [argument] ∧ argument.kind = .immediate value :=
  Directive.word.yields_statement (by simp) (by simp) (fun _ ↦ yields_argumentKind) ends

/-- The line that a word is printed as if it has no instruction to show. -/
def dataLine (word : Word) : Line where
  text := Printing.data word
  tokens := [.dot, .identifier "word", .number word.toNat]
  read := word.open_data

end Word

end MiniA64
