import MiniA64.Proofs.Assembly.Assembled
import MiniA64.Proofs.Assembly.Lines
import MiniA64.Proofs.Assembly.Spans

/-!
# Writing string literals

Every text can be written as a string literal: the characters that would end it or stand for others
are written with a backslash, and all others as they are. Two scans read it, one after the other.
The first one looks for the end of the literal and only passes over what follows a backslash; the
second one, when the bytes are made, puts the characters in place of their escapes. Both take
backslashes in pairs with the characters after them, whatever these are.

So the literal of a text is one token wherever a token begins with it, and a directive makes the text
of it again, in UTF-8. In no string token does the second scan find a backslash without a character
after it.
-/

namespace MiniA64

namespace StringLiteral

/-! ## Literals -/

/-- A character between quotes. -/
def written : Char → List Char
  | '\n' => ['\\', 'n']
  | '\r' => ['\\', 'r']
  | '\t' => ['\\', 't']
  | '\x00' => ['\\', '0']
  | '\\' => ['\\', '\\']
  | '"' => ['\\', '"']
  | c => [c]

def body (text : String) : String := String.ofList (text.toList.flatMap written)

def literal (text : String) : String := "\"" ++ body text ++ "\""

theorem toList_body (text : String) : (body text).toList = text.toList.flatMap written :=
  String.toList_ofList

theorem toList_literal (text : String) :
    (literal text).toList = '"' :: ((body text).toList ++ ['"']) := by
  simp [literal]

/-! ## Bodies -/

/-- What may stand between quotes: plain characters, and backslashes with a character after each. -/
inductive IsBody : List Char → Prop
  | nil : IsBody []
  | plain {c : Char} {rest : List Char} (notBackslash : c ≠ '\\') (notQuote : c ≠ '"')
      (notNewline : c ≠ '\n') (others : IsBody rest) : IsBody (c :: rest)
  | escape {c : Char} {rest : List Char} (notNewline : c ≠ '\n') (others : IsBody rest) :
    IsBody ('\\' :: c :: rest)

/-- A character is written as itself or as a backslash and what that makes the character of. -/
theorem written_cases (c : Char) :
    (written c = [c] ∧ c ≠ '\\' ∧ c ≠ '"' ∧ c ≠ '\n') ∨
      ∃ letter, written c = ['\\', letter] ∧ letter ≠ '\n' ∧ escaped letter = c := by
  unfold written
  split
  · exact .inr ⟨'n', rfl, by decide, rfl⟩
  · exact .inr ⟨'r', rfl, by decide, rfl⟩
  · exact .inr ⟨'t', rfl, by decide, rfl⟩
  · exact .inr ⟨'0', rfl, by decide, rfl⟩
  · exact .inr ⟨'\\', rfl, by decide, rfl⟩
  · exact .inr ⟨'"', rfl, by decide, rfl⟩
  · rename_i notNewline _ _ _ notBackslash notQuote
    exact .inl ⟨rfl, notBackslash, notQuote, notNewline⟩

theorem isBody_flatMap_written (text : List Char) : IsBody (text.flatMap written) := by
  induction text with
  | nil => exact .nil
  | cons c text ih =>
    rw [List.flatMap_cons]
    obtain ⟨same, notBackslash, notQuote, notNewline⟩ | ⟨letter, escape, notNewline, -⟩ :=
      written_cases c
    · rw [same]
      exact .plain notBackslash notQuote notNewline ih
    · rw [escape]
      exact .escape notNewline ih

theorem unescape_plain {c : Char} (notBackslash : c ≠ '\\') (rest : List Char) :
    unescape (c :: rest) = c :: unescape rest := by
  rw [unescape]
  rintro _ _ rfl
  exact absurd rfl notBackslash

theorem unescape_flatMap_written (text : List Char) : unescape (text.flatMap written) = text := by
  induction text with
  | nil => rfl
  | cons c text ih =>
    rw [List.flatMap_cons]
    obtain ⟨same, notBackslash, -⟩ | ⟨letter, escape, -, back⟩ := written_cases c
    · rw [same, List.singleton_append, unescape_plain notBackslash, ih]
    · rw [escape]
      show escaped letter :: unescape (text.flatMap written) = _
      rw [back, ih]

/-- The bytes of a literal are those of the text that it was made for. -/
theorem bytes_body (text : String) : bytes (body text) = text.toUTF8.toList := by
  rw [bytes, toList_body, unescape_flatMap_written, String.ofList_toList]

/-- How many backslashes a text ends in. -/
def backslashesAtEnd (text : List Char) : Nat := (text.reverse.takeWhile (· = '\\')).length

theorem backslashesAtEnd_le (text : List Char) : backslashesAtEnd text ≤ text.length := by
  have shorter := (List.takeWhile_sublist (· = '\\') (l := text.reverse)).length_le
  rwa [List.length_reverse] at shorter

/-- A first character counts only if nothing but backslashes follows it. -/
theorem backslashesAtEnd_cons (c : Char) (rest : List Char) :
    backslashesAtEnd (c :: rest) =
      if backslashesAtEnd rest = rest.length then rest.length + (if c = '\\' then 1 else 0)
      else backslashesAtEnd rest := by
  unfold backslashesAtEnd
  rw [List.reverse_cons, List.takeWhile_append, List.length_reverse]
  split
  · by_cases backslash : c = '\\'
    · simp [backslash]
    · simp [backslash]
  · rfl

/-- No backslash is left over at the end of a body. -/
theorem IsBody.backslashesAtEnd_mod {text : List Char} (isBody : IsBody text) :
    backslashesAtEnd text % 2 = 0 := by
  induction isBody with
  | nil => rfl
  | @plain c rest notBackslash _ _ _ ih =>
    rw [backslashesAtEnd_cons, if_neg notBackslash]
    split <;> omega
  | @escape c rest _ _ ih =>
    have few := backslashesAtEnd_le rest
    rw [backslashesAtEnd_cons, backslashesAtEnd_cons, List.length_cons, if_pos rfl]
    by_cases whole : backslashesAtEnd rest = rest.length
    · rw [if_pos whole]
      split <;> split <;> omega
    · rw [if_neg whole, if_neg (by omega)]
      exact ih

end StringLiteral

namespace Lexeme

open StringLiteral

theorem bodyOf_plain {c : Char} (notBackslash : c ≠ '\\') (rest : List Char) :
    bodyOf (c :: rest) =
      if c = '\n' then ([], false)
      else if c = '"' then ([], true)
      else (c :: (bodyOf rest).1, (bodyOf rest).2) := by
  rw [bodyOf]
  rintro _ _ rfl
  exact absurd rfl notBackslash

/-- A body is taken up to the quote after it. -/
theorem bodyOf_append {text : List Char} (isBody : IsBody text) (rest : List Char) :
    bodyOf (text ++ '"' :: rest) = (text, true) := by
  induction isBody with
  | nil => rfl
  | plain notBackslash notQuote notNewline _ ih =>
    rw [List.cons_append, bodyOf_plain notBackslash, if_neg notNewline, if_neg notQuote, ih]
  | escape notNewline _ ih =>
    rw [List.cons_append, List.cons_append, bodyOf, if_neg notNewline, ih]

/-- What is taken up to a quote is a body. -/
theorem isBody_bodyOf (text : List Char) (closed : (bodyOf text).2 = true) :
    IsBody (bodyOf text).1 := by
  fun_induction bodyOf text with
  | case1 => cases closed
  | case2 => cases closed
  | case3 c rest notNewline body ended read ih =>
    rw [read] at ih
    exact .escape notNewline (ih closed)
  | case4 => cases closed
  | case5 => exact .nil
  | case6 c rest notEscape notNewline notQuote body ended read ih =>
    rw [read] at ih
    have notBackslash : c ≠ '\\' := by
      rintro rfl
      cases rest with
      | nil =>
        cases read
        cases closed
      | cons next rest => exact notEscape next rest rfl rfl
    exact .plain notBackslash notQuote notNewline (ih closed)

/-- A body between quotes is scanned up to the second quote. -/
theorem scan_quoted {text : List Char} (isBody : IsBody text) (rest : List Char) :
    scan ('"' :: (text ++ '"' :: rest)) =
      (.string (String.ofList text), text.length + 2) := by
  have mark : isNameStart '"' = false ∧ Text.isDigit '"' = false := by decide
  simp [scan, mark, bodyOf_append isBody rest]

/-- A string token is made of a body. -/
theorem isBody_of_scan {text : List Char} {raw : String}
    (scanned : (scan text).1 = .string raw) : IsBody raw.toList := by
  obtain ⟨rest, closed, rfl⟩ := exists_bodyOf_of_scan scanned
  rw [String.toList_ofList]
  exact isBody_bodyOf rest closed

end Lexeme

namespace StringLiteral

open Lexeme

/-! ## Tokens -/

theorem scan_literal (text : String) (rest : List Char) :
    scan ((literal text).toList ++ rest) =
      (.string (body text), (literal text).toList.length) := by
  have scanned := scan_quoted (isBody_flatMap_written text.toList) rest
  rw [← toList_body, String.ofList_toList] at scanned
  rw [toList_literal]
  simpa using scanned

theorem isToken_literal (text : String) :
    IsToken (fun _ ↦ True) (literal text).toList (.string (body text)) where
  visible rest _ := by
    rw [toList_literal]
    rfl
  scanned rest _ := scan_literal text rest

theorem mark_literal (text : String) : Mark (literal text).toList [.string (body text)] :=
  (isToken_literal text).piece rfl

end StringLiteral

namespace Cursor

open StringLiteral

/-- A literal is the next token where it stands, and the one after that comes behind it. -/
theorem next_literal {cursor : Cursor} {text : String} {rest : List Char}
    (here : cursor.rest = (literal text).toList ++ rest) (file : String) :
    (cursor.next file).1 = ⟨.string (body text), cursor.location file, cursor.offset,
        cursor.offset + (literal text).length⟩ ∧
      (cursor.next file).2.rest = rest := by
  have next := next_of_isToken (isToken_literal text) trivial here file
  rw [String.length_toList] at next
  constructor
  · rw [next]
  · rw [next, rest_skip, here, ← String.length_toList, List.drop_left]

end Cursor

namespace TokenReader

open StringLiteral

theorem ends_literal (text file : String) (line : Int) :
    Ends (new (literal text) file line)
      [⟨.string (body text), ⟨file, line, 1⟩, 0, (literal text).length⟩] := by
  let start := Cursor.start (literal text) line
  obtain ⟨token, rest⟩ := @Cursor.next_literal start text [] (List.append_nil _).symm file
  have goes : (start.next file).1.kind ≠ .endOfInput := by
    rw [token]
    exact TokenKind.noConfusion
  have ended : ((start.next file).2.next file).1.kind = .endOfInput := by
    rw [Cursor.kind_next, Cursor.rest_skipTrivia, rest]
    rfl
  have all : Ends ⟨literal text, file, start, none⟩ [(start.next file).1] :=
    .cons goes (ends_nil ended)
  rw [token, show start.offset = 0 from rfl, Nat.zero_add] at all
  exact all

theorem isBody_of_mem_taken {source file : String} {line : Int} {calls : List Call} {token : Token}
    {raw : String} (member : token ∈ taken calls (new source file line))
    (kind : token.kind = .string raw) : IsBody raw.toList := by
  have stands : (new source file line).StandsAt (.start source line) := .plain ..
  rw [taken_eq stands] at member
  obtain ⟨place, rfl⟩ := exists_next_of_mem_stream member
  exact Lexeme.isBody_of_scan ((place.kind_next _).symm.trans kind)

end TokenReader

/-! ## Bytes -/

namespace StringLiteral

/-- The directives that place strings. -/
def directives : List Directive := [.ascii, .asciz, .string]

/-- What a directive makes of a text. -/
def data (directive : Directive) (text : String) : List UInt8 :=
  text.toUTF8.toList ++ if directive = .ascii then [] else [0]

theorem ofString_body {directive : Directive} {text : String} {argument : Operand}
    (kind : argument.kind = .string (body text)) :
    Data.ofString directive argument = .ok (data directive text) := by
  rw [Data.ofString, kind, data, ← bytes_body]

variable {limits : Limits} {directive : Directive} {text : String} {statement : Statement}
  {argument : Operand}

/-- A statement that places a string counts its bytes. -/
theorem layout_statement {layout : Layout} (places : directive ∈ directives)
    (kind : statement.kind = .directive directive [argument])
    (string : argument.kind = .string (body text))
    (room : ((layout.size + (data directive text).length : Nat) : Int) ≤ limits.capacity) :
    layout.statement limits statement =
      .ok { layout with size := layout.size + (data directive text).length } := by
  have placed : layout.placeString limits directive argument =
      .ok { layout with size := layout.size + (data directive text).length } := by
    rw [Layout.placeString, ofString_body string]
    exact if_neg (by simp only [data] at room ⊢; omega)
  have each : layout.statement limits statement =
      layout.each statement.location .noStrings [argument] fun layout argument ↦
        layout.placeString limits directive argument := by
    rw [Layout.statement, kind]
    simp only [directives, List.mem_cons, List.not_mem_nil, or_false] at places
    obtain rfl | rfl | rfl := places <;> rfl
  rw [each, Layout.each, if_neg (by simp), List.foldlM_cons, placed]
  rfl

/-- A statement that places a string emits its bytes. -/
theorem emission_statement {symbols : SymbolTable} {emission : Emission}
    (places : directive ∈ directives)
    (kind : statement.kind = .directive directive [argument])
    (string : argument.kind = .string (body text))
    (room : ((emission.address + (data directive text).length : Nat) : Int) ≤ limits.capacity) :
    emission.statement limits symbols statement =
      .ok (emission.append argument.location (data directive text)) := by
  have each : emission.statement limits symbols statement =
      emission.each limits statement.location .noStrings [argument] (Data.ofString directive) := by
    rw [Emission.statement, kind]
    simp only [directives, List.mem_cons, List.not_mem_nil, or_false] at places
    obtain rfl | rfl | rfl := places <;> rfl
  have fits : emission.fits limits (data directive text).length = true := by
    simpa [Emission.fits] using room
  rw [each, Emission.each, if_neg (by simp), List.foldlM_cons, ofString_body string]
  simp only [bind, Except.bind, Emission.emit, fits, if_true]
  rfl

/-! ## Programs -/

theorem yields_argumentKind {token : Token} (here : token.kind = .string (body text))
    (after : List TokenKind) :
    Parser.Yields (Grammar.argumentKind token) [.string (body text)] after 0
      (· = .string (body text)) := by
  rw [Grammar.argumentKind]
  simp only [here]
  exact .advance rfl (Parser.yields_pure rfl)

/-- A line with a directive and a literal is a program of one statement, which places the text. -/
theorem exists_parse (directive : Directive) (text file : String) {nodes : Int}
    (enough : 3 ≤ nodes) :
    ∃ program statement argument,
      Program.parse ("." ++ directive.name ++ " " ++ literal text) file nodes = .ok program ∧
        program.statements = [statement] ∧ statement.kind = .directive directive [argument] ∧
        argument.kind = .string (body text) := by
  let line := directive.line (mark_literal text).open
  have stands : (directive.line (mark_literal text).open).Stands 2 fun statement ↦ ∃ argument,
      statement.kind = .directive directive [argument] ∧ argument.kind = .string (body text) :=
    fun ends ↦
      directive.yields_statement (by simp) (by simp) (fun _ ↦ yields_argumentKind) ends
  obtain ⟨program, statement, parsed, statements, argument, found⟩ :=
    Line.parse_single stands file enough
  exact ⟨program, statement, argument, parsed, statements, found⟩

theorem assemble_literal (assembler : Assembler) (text file : String)
    (places : directive ∈ directives) (nodes : 3 ≤ assembler.limits.nodes)
    (room : ((data directive text).length : Int) ≤ assembler.limits.capacity) :
    (assembler.assemble ("." ++ directive.name ++ " " ++ literal text) file).1 =
      .ok (data directive text) := by
  obtain ⟨program, statement, argument, parsed, statements, kind, string⟩ :=
    exists_parse directive text file nodes
  have fits : ((0 + (data directive text).length : Nat) : Int) ≤ assembler.limits.capacity := by
    rw [Nat.zero_add]
    exact room
  have counted := @layout_statement _ _ _ _ _ .empty places kind string fits
  have laidOut : Layout.ofStatements assembler.limits program.statements =
      .ok { Layout.empty with size := 0 + (data directive text).length } := by
    rw [statements, Layout.ofStatements, List.foldlM_cons, counted]
    rfl
  have emitted : Emission.ofStatements assembler.limits .empty program.statements =
      .ok (Emission.empty.append argument.location (data directive text)) := by
    rw [statements, Emission.ofStatements, List.foldlM_cons,
      @emission_statement _ _ _ _ _ .empty .empty places kind string fits]
    rfl
  rw [Assembler.assemble_of_ok parsed laidOut emitted]
  simp [Emission.append, Emission.empty]

/--
Wherever a token begins with the literal of a text, the token is a string of exactly that literal,
and a source that is nothing but the literal has no other token. A directive that places strings
makes of it the text in UTF-8, with a zero byte after it unless it is `.ascii`: as the only line of a
program, and behind whatever any other program has made so far. In no source the body of a string
ends in a backslash that is not one of a pair.
-/
theorem literal_reads_back (text : String) :
    (∀ (file : String) (cursor : Cursor) (rest : List Char),
      cursor.rest = (literal text).toList ++ rest →
        (cursor.next file).1 = ⟨.string (body text), cursor.location file, cursor.offset,
            cursor.offset + (literal text).length⟩ ∧
          (cursor.next file).2.rest = rest) ∧
      (∀ (file : String) (line : Int), TokenReader.Ends (.new (literal text) file line)
        [⟨.string (body text), ⟨file, line, 1⟩, 0, (literal text).length⟩]) ∧
      (∀ directive ∈ directives, ∀ (assembler : Assembler) (file : String),
        3 ≤ assembler.limits.nodes →
        ((data directive text).length : Int) ≤ assembler.limits.capacity →
        (assembler.assemble ("." ++ directive.name ++ " " ++ literal text) file).1 =
          .ok (text.toUTF8.toList ++ if directive = .ascii then [] else [0])) ∧
      (∀ directive ∈ directives, ∀ (limits : Limits) (symbols : SymbolTable)
        (emission : Emission) (statement : Statement) (argument : Operand),
        statement.kind = .directive directive [argument] →
        argument.kind = .string (body text) →
        ((emission.address + (data directive text).length : Nat) : Int) ≤ limits.capacity →
        ∃ next, emission.statement limits symbols statement = .ok next ∧
          next.code.toList = emission.code.toList ++ data directive text) ∧
      ∀ (source file : String) (line : Int) (calls : List TokenReader.Call),
        ∀ token ∈ TokenReader.taken calls (.new source file line), ∀ raw : String,
          token.kind = .string raw → backslashesAtEnd raw.toList % 2 = 0 := by
  refine ⟨fun file cursor rest here ↦ cursor.next_literal here file,
    TokenReader.ends_literal text,
    fun directive places assembler file ↦ assemble_literal assembler text file places,
    fun directive places limits symbols emission statement argument kind string room ↦ ?_,
    fun source file line calls token member raw kind ↦
      (TokenReader.isBody_of_mem_taken member kind).backslashesAtEnd_mod⟩
  refine ⟨_, emission_statement places kind string room, ?_⟩
  simp [Emission.append]

/-- A text of a quote, a letter of two bytes, a backslash and a newline, in front of a comma. -/
theorem literal_reads_back_quote :
    let text := "\"é\\\n"
    let raw := "\\\"é\\\\\\n"
    let cursor : Cursor := ⟨(literal text).toList ++ [','], 1, 8, 7⟩
    literal text = "\"" ++ raw ++ "\"" ∧
      (cursor.next "<input>").1 = ⟨.string raw, ⟨"<input>", 1, 8⟩, 7, 16⟩ ∧
      (cursor.next "<input>").2.rest = [','] ∧
      ((Assembler.new {}).assemble (".asciz " ++ literal text) "<input>").1 =
        .ok [0x22, 0xC3, 0xA9, 0x5C, 0x0A, 0] ∧
      (∃ next, Emission.empty.statement {} .empty
          ⟨1, default, .directive .ascii [⟨2, default, .string raw⟩]⟩ = .ok next ∧
        next.code.toList = [0x22, 0xC3, 0xA9, 0x5C, 0x0A]) ∧
      backslashesAtEnd raw.toList % 2 = 0 := by
  intro text raw cursor
  have written : body text = raw := by decide
  have length : (literal text).length = 9 := by decide
  have bytes : text.toUTF8.toList = [0x22, 0xC3, 0xA9, 0x5C, 0x0A] := by decide +kernel
  obtain ⟨inSource, -, alone, anywhere, paired⟩ := literal_reads_back text
  obtain ⟨token, rest⟩ := inSource "<input>" cursor [','] rfl
  refine ⟨by rw [literal, written], ?_, rest, ?_, ?_, ?_⟩
  · rw [token, written, length]
    rfl
  · have room : (data .asciz text).length = 6 := by rw [data, bytes]; rfl
    have assembled := alone .asciz (by decide) (.new {}) "<input>" (by decide)
      (by rw [room]; decide)
    rw [bytes] at assembled
    exact assembled
  · have room : (data .ascii text).length = 5 := by rw [data, bytes]; rfl
    obtain ⟨next, emitted, code⟩ := anywhere .ascii (by decide) {} .empty .empty
      ⟨1, default, .directive .ascii [⟨2, default, .string raw⟩]⟩ ⟨2, default, .string raw⟩ rfl
      (by rw [written]) (by rw [room]; decide)
    refine ⟨next, emitted, ?_⟩
    rw [code, data, bytes]
    rfl
  · refine paired (literal text) "<input>" 1 [.next]
      ⟨.string raw, ⟨"<input>", 1, 1⟩, 0, 9⟩ ?_ raw rfl
    decide

end StringLiteral

end MiniA64
