import MiniA64.Assembly.Diagnostic
import MiniA64.Text.Decimal
import MiniA64.Text.Quoted

/-!
# Tokens

Source text as a sequence of tokens. Blanks and comments separate tokens; a comment runs from a
semicolon or two slashes to the end of the line. A minus sign directly before a digit belongs to
the number. The name `b` directly before a dot continues through the condition suffix, so that a
conditional branch is one token. Text that forms no token gives an error token; apart from a
digit of another script, which consumes nothing, every token but the last consumes text.

A number is read here however long it is. A host that reads no more than some decimal digits stops
a trial of the scan, and with it the sequence, at a longer one.
-/

namespace MiniA64

inductive TokenKind
  | newline
  | endOfInput
  | identifier (name : String)
  | number (value : Int)
  | string (raw : String)
  | colon
  | comma
  | hash
  | leftBracket
  | rightBracket
  | bang
  | dot
  | plus
  | minus
  | error (error : LexicalError)
  deriving DecidableEq, Repr, Inhabited

namespace TokenKind

/-- How a message names the token. -/
def text : TokenKind → String
  | newline => "end of line"
  | endOfInput => "end of input"
  | identifier name => name
  | number value => toString value
  | string raw => raw
  | colon => ":"
  | comma => ","
  | hash => "#"
  | leftBracket => "["
  | rightBracket => "]"
  | bang => "!"
  | dot => "."
  | plus => "+"
  | minus => "-"
  | error problem => problem.message

def name : TokenKind → String
  | newline => "NEWLINE"
  | endOfInput => "EOF"
  | identifier _ => "IDENTIFIER"
  | number _ => "NUMBER"
  | string _ => "STRING"
  | colon => "COLON"
  | comma => "COMMA"
  | hash => "HASH"
  | leftBracket => "LBRACKET"
  | rightBracket => "RBRACKET"
  | bang => "BANG"
  | dot => "DOT"
  | plus => "PLUS"
  | minus => "MINUS"
  | error _ => "ERROR"

/-- The end of the input and errors end the token sequence. -/
def isFinal : TokenKind → Bool
  | endOfInput => true
  | error _ => true
  | _ => false

def ofPunctuation? : Char → Option TokenKind
  | ':' => some colon
  | ',' => some comma
  | '#' => some hash
  | '[' => some leftBracket
  | ']' => some rightBracket
  | '!' => some bang
  | '.' => some dot
  | '+' => some plus
  | '-' => some minus
  | _ => none

end TokenKind

structure Token where
  kind : TokenKind
  location : Location
  /-- Offsets of the first character and of the first one after the token. -/
  start : Nat
  stop : Nat
  deriving DecidableEq, Repr, Inhabited

namespace Token

def text (token : Token) : String := token.kind.text

/-- What a description shows of the token besides its kind: a number plainly, text in quotes. -/
def content? (token : Token) : Option String :=
  match token.kind with
  | .newline => none
  | .endOfInput => none
  | .number value => some (toString value)
  | kind => some (Text.quoted kind.text)

def description (token : Token) : String :=
  let place := toString token.location.line ++ ":" ++ toString token.location.column
  let parts := [token.kind.name] ++ token.content?.toList ++ [place]
  "Token(" ++ ", ".intercalate parts ++ ")"

end Token

namespace Lexeme

def isLetter (c : Char) : Bool := ('a' ≤ c && c ≤ 'z') || ('A' ≤ c && c ≤ 'Z')

def isAsciiDigit (c : Char) : Bool := '0' ≤ c && c ≤ '9'

def isNameStart (c : Char) : Bool := isLetter c || c = '_'

def isNameChar (c : Char) : Bool := isNameStart c || isAsciiDigit c

/-- Blanks and comments before the next token. The flag tells that a comment is open. -/
def triviaLength (comment : Bool) : List Char → Nat
  | [] => 0
  | c :: rest =>
    if comment then if c = '\n' then 0 else triviaLength true rest + 1
    else if c = ' ' || c = '\t' || c = '\r' then triviaLength false rest + 1
    else if c = ';' || (c = '/' && rest.head? = some '/') then triviaLength true rest + 1
    else 0

/-- A name, extended by the condition suffix if it is `b` before a dot. -/
def nameOf (text : List Char) : List Char :=
  let name := text.takeWhile isNameChar
  let rest := text.dropWhile isNameChar
  if (name = ['b'] || name = ['B']) && rest.head? = some '.' then
    name ++ '.' :: (rest.drop 1).takeWhile isLetter
  else name

/-- The radix of a number and the length of the mark in front of its digits. -/
def radixOf (text : List Char) : Nat × Nat :=
  match text with
  | '0' :: mark :: _ =>
    if mark = 'x' || mark = 'X' then (16, 2)
    else if mark = 'b' || mark = 'B' then (2, 2)
    else (10, 0)
  | _ => (10, 0)

def isDigitOf (radix : Nat) (c : Char) : Bool :=
  if radix = 16 then isAsciiDigit c || ('a' ≤ c && c ≤ 'f') || ('A' ≤ c && c ≤ 'F')
  else if radix = 2 then c = '0' || c = '1'
  else isAsciiDigit c

def digitValue (c : Char) : Nat :=
  if isAsciiDigit c then c.toNat - 48
  else if 'a' ≤ c && c ≤ 'f' then c.toNat - 87
  else c.toNat - 55

def valueOf (radix : Nat) (digits : List Char) : Nat :=
  digits.foldl (fun value c ↦ radix * value + digitValue c) 0

/-- A number from its first digit on, and how many characters it takes. -/
def numberOf (negative : Bool) (text : List Char) : TokenKind × Nat :=
  let (radix, mark) := radixOf text
  let digits := (text.drop mark).takeWhile (isDigitOf radix)
  if digits.isEmpty then
    (.error (if radix = 16 then .expectedHexDigits else .expectedBinaryDigits), mark)
  else
    let value : Int := valueOf radix digits
    (.number (if negative then -value else value), mark + digits.length)

/-- The body of a string up to the closing quote or the end of the line, and whether it closed. -/
def bodyOf : List Char → List Char × Bool
  | [] => ([], false)
  | '\\' :: c :: rest =>
    if c = '\n' then (['\\'], false)
    else
      let (body, closed) := bodyOf rest
      ('\\' :: c :: body, closed)
  | c :: rest =>
    if c = '\n' then ([], false)
    else if c = '"' then ([], true)
    else
      let (body, closed) := bodyOf rest
      (c :: body, closed)

/-- The token at the start of a text without leading blanks, and how many characters it takes. -/
def scan (text : List Char) : TokenKind × Nat :=
  match text with
  | [] => (.endOfInput, 0)
  | c :: rest =>
    if c = '\n' then (.newline, 1)
    else if isNameStart c then
      let name := nameOf text
      (.identifier (String.ofList name), name.length)
    else if Text.isDigit c then numberOf false text
    else if c = '-' && (rest.head?.any Text.isDigit) then
      let (kind, length) := numberOf true rest
      (kind, length + 1)
    else if c = '"' then
      let (body, closed) := bodyOf rest
      if closed then (.string (String.ofList body), body.length + 2)
      else (.error .unterminatedString, body.length + 1)
    else
      match TokenKind.ofPunctuation? c with
      | some kind => (kind, 1)
      | none => (.error (.unexpectedCharacter c), 1)

theorem nameOf_ne_nil {c : Char} {rest : List Char} (h : isNameStart c = true) :
    0 < (nameOf (c :: rest)).length := by
  have first : isNameChar c = true := by simp [isNameChar, h]
  simp only [nameOf]
  split <;> simp [first]

theorem numberOf_pos (negative : Bool) (text : List Char)
    (h : (numberOf negative text).1.isFinal = false) : 0 < (numberOf negative text).2 := by
  simp only [numberOf] at h ⊢
  split at h
  · cases h
  · rename_i digits
    rw [if_neg digits]
    have : 0 < ((text.drop (radixOf text).2).takeWhile (isDigitOf (radixOf text).1)).length := by
      simpa [List.length_pos_iff, List.isEmpty_iff] using digits
    omega

/-- Every token that does not end the sequence consumes text. -/
theorem scan_pos (text : List Char) (h : (scan text).1.isFinal = false) : 0 < (scan text).2 := by
  cases text with
  | nil => simp [scan, TokenKind.isFinal] at h
  | cons c rest =>
    simp only [scan] at h ⊢
    split
    · exact Nat.one_pos
    · rename_i notNewline
      rw [if_neg notNewline] at h
      split
      · rename_i start
        exact nameOf_ne_nil start
      · rename_i notName
        rw [if_neg notName] at h
        split
        · rename_i digit
          rw [if_pos digit] at h
          exact numberOf_pos false _ h
        · rename_i notDigit
          rw [if_neg notDigit] at h
          split
          · exact Nat.succ_pos _
          · split
            · split <;> exact Nat.succ_pos _
            · split <;> exact Nat.one_pos

end Lexeme

/-- A place in a source text: what is left of it, and where that begins. -/
structure Cursor where
  rest : List Char
  line : Int
  column : Int
  offset : Nat
  deriving DecidableEq, Repr, Inhabited

namespace Cursor

def start (source : String) (line : Int) : Cursor := ⟨source.toList, line, 1, 0⟩

def skip : Nat → Cursor → Cursor
  | 0, cursor => cursor
  | count + 1, cursor =>
    match cursor.rest with
    | [] => cursor
    | c :: rest =>
      if c = '\n' then skip count ⟨rest, cursor.line + 1, 1, cursor.offset + 1⟩
      else skip count ⟨rest, cursor.line, cursor.column + 1, cursor.offset + 1⟩

theorem rest_skip (count : Nat) (cursor : Cursor) :
    (cursor.skip count).rest = cursor.rest.drop count := by
  induction count generalizing cursor with
  | zero => rfl
  | succ count ih =>
    rcases cursor with ⟨_ | ⟨c, rest⟩, line, column, offset⟩
    · rfl
    · simp only [skip]
      split <;> simp [ih]

def location (file : String) (cursor : Cursor) : Location := ⟨file, cursor.line, cursor.column⟩

/-- The place of the next token, past blanks and comments. -/
def skipTrivia (cursor : Cursor) : Cursor := cursor.skip (Lexeme.triviaLength false cursor.rest)

/-- The next token and the place after it. -/
def next (file : String) (cursor : Cursor) : Token × Cursor :=
  let start := cursor.skipTrivia
  let (kind, length) := Lexeme.scan start.rest
  let stop := start.skip length
  (⟨kind, start.location file, start.offset, stop.offset⟩, stop)

theorem kind_next (file : String) (cursor : Cursor) :
    (cursor.next file).1.kind = (Lexeme.scan cursor.skipTrivia.rest).1 := rfl

/-- A token that does not end the sequence leaves less text. -/
theorem length_next_lt (file : String) (cursor : Cursor)
    (h : (cursor.next file).1.kind.isFinal = false) :
    (cursor.next file).2.rest.length < cursor.rest.length := by
  rw [kind_next] at h
  have consumed := Lexeme.scan_pos _ h
  have rest : (cursor.next file).2.rest =
      cursor.skipTrivia.rest.drop (Lexeme.scan cursor.skipTrivia.rest).2 := rest_skip _ _
  have shorter : cursor.skipTrivia.rest.length ≤ cursor.rest.length := by
    rw [skipTrivia, rest_skip, List.length_drop]
    omega
  have nonempty : cursor.skipTrivia.rest ≠ [] := by
    intro empty
    rw [empty] at h
    cases h
  have positive := List.length_pos_iff.mpr nonempty
  rw [rest, List.length_drop]
  omega

/-- All tokens up to the first one that ends the sequence, which is included. -/
def tokens (file : String) (cursor : Cursor) : List Token :=
  let step := cursor.next file
  if _final : step.1.kind.isFinal then [step.1] else step.1 :: tokens file step.2
termination_by cursor.rest.length
decreasing_by exact length_next_lt file cursor (by simpa using _final)

end Cursor

/-- A source read token by token, with one token of lookahead. -/
structure TokenReader where
  source : String
  file : String
  cursor : Cursor
  peeked : Option Token
  deriving Repr

namespace TokenReader

def new (source file : String) (line : Int) : TokenReader :=
  ⟨source, file, Cursor.start source line, none⟩

/-- Consumes the next token. At the end of the input it is the end again. -/
def next (reader : TokenReader) : Token × TokenReader :=
  match reader.peeked with
  | some token => (token, { reader with peeked := none })
  | none =>
    let (token, cursor) := reader.cursor.next reader.file
    (token, { reader with cursor })

/-- The next token without consuming it. -/
def peek (reader : TokenReader) : Token × TokenReader :=
  match reader.peeked with
  | some token => (token, reader)
  | none =>
    let (token, cursor) := reader.cursor.next reader.file
    (token, { reader with cursor, peeked := some token })

/-- The tokens up to the first end of the input, but no more than a number of them. An error does
not end them. -/
def tokenize : Nat → TokenReader → List Token
  | 0, _ => []
  | count + 1, reader =>
    let (token, after) := reader.next
    if token.kind = .endOfInput then [token] else token :: tokenize count after

/-- The text of a source line; empty outside the source. -/
def lineText (reader : TokenReader) (line : Int) : String :=
  ((sourceLine? reader.source line).map dropReturns).getD ""

end TokenReader

end MiniA64
