import MiniA64.Host.Memory
import MiniA64.Text.Utf8

/-!
# Answers

Lines of text that are read from the console of a program. The input is decoded in blocks, so
what a block holds beyond the line is gone for the program, and is kept here for later lines. A
character or a line ending that a block cuts in two is completed by the next block.
-/

namespace MiniA64

structure Answers where
  /-- Decoded text that is not yet part of an answer. -/
  text : List Char
  /-- The first bytes of a character that is cut in two. -/
  cut : List UInt8
  /-- Whether a carriage return waits for what comes after it. -/
  holdsReturn : Bool
  deriving Repr

namespace Answers

def blockSize : Nat := 8192

def empty : Answers := ⟨[], [], false⟩

/-- Adds decoded text, of which a carriage return at the end is held back. -/
def addText (answers : Answers) (text : List Char) : Answers :=
  if text.isEmpty then answers
  else
    let text := if answers.holdsReturn then '\r' :: text else text
    let holdsReturn := text.getLast? = some '\r'
    let whole := if holdsReturn then text.dropLast else text
    { answers with text := answers.text ++ Text.unifyNewlines whole, holdsReturn }

def addBlock (answers : Answers) (block : List UInt8) : Except Text.Utf8Error Answers := do
  let (text, cut) ← Text.decodeBlock (answers.cut ++ block)
  return { answers.addText text with cut }

/-- At the end of the input nothing may be cut off, and a return that is held ends a line. -/
def finish (answers : Answers) : Except Text.Utf8Error Answers := do
  let _ ← Text.decodeUtf8 answers.cut
  return ⟨answers.text ++ if answers.holdsReturn then ['\n'] else [], [], false⟩

/-- The text up to a line ending, or all of it if it has none. -/
def split (answers : Answers) : String × Answers :=
  (String.ofList (answers.text.takeWhile (· ≠ '\n')),
    { answers with text := (answers.text.dropWhile (· ≠ '\n')).drop 1 })

/-- Reads blocks until the text holds a line, or the input ends. -/
def fill (answers : Answers) (console : BufferConsole) :
    Except Text.Utf8Error Answers × BufferConsole :=
  if answers.text.contains '\n' then (.ok answers, console)
  else
    match _h : console.input with
    | [] => (answers.finish, console)
    | _ :: _ =>
      match answers.addBlock (console.readBlock blockSize).1 with
      | .ok answers => answers.fill (console.readBlock blockSize).2
      | .error error => (.error error, (console.readBlock blockSize).2)
  termination_by console.input.length
  decreasing_by
    simp only [BufferConsole.readBlock, List.length_drop, _h, List.length_cons, blockSize]
    omega

/-- The next line, if there is any text left. -/
def next (answers : Answers) (console : BufferConsole) :
    Except Text.Utf8Error (Option String × Answers) × BufferConsole :=
  let (filled, console) := answers.fill console
  (filled.map fun answers ↦
    if answers.text.isEmpty then (none, answers)
    else (some answers.split.1, answers.split.2), console)

end Answers

end MiniA64
