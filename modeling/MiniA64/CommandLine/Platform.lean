import MiniA64.CommandLine.Answers
import MiniA64.CommandLine.Session

/-!
# Platforms

What a tool finds where it runs, and what differs from one place to another: how much memory a
machine can have, how the user is asked for a line, and whether pictures can be drawn.
-/

namespace MiniA64

/-- What a prompt comes to. -/
inductive PromptAnswer
  | line (text : String)
  /-- The input has ended. What the prompt has not printed yet comes behind the screen. -/
  | ended (held : List UInt8)
  deriving Repr

structure PromptReply (σ : Type) where
  answer : Except ToolError PromptAnswer
  /-- What is printed by then. -/
  shown : List UInt8
  state : σ
  /-- What the prompt has left of the input for the program. -/
  input : List UInt8

/-- Asks for lines of the input, and may remember what it has read beyond them. -/
structure Prompter (σ : Type) where
  start : σ
  ask : σ → List UInt8 → PromptReply σ

namespace Prompter

variable {σ : Type}

/-- So many answers are empty lines, and each prompt shows the same. -/
def Enters (prompter : Prompter σ) (shown : List UInt8) : Nat → σ → List UInt8 → Prop
  | 0, _, _ => True
  | count + 1, state, input =>
    ∃ state' input', prompter.ask state input = ⟨.ok (.line ""), shown, state', input'⟩ ∧
      prompter.Enters shown count state' input'

/-- Every newline of an input of newlines is answered by an empty line. -/
def TakesNewlines (prompter : Prompter σ) (shown : List UInt8) : Prop :=
  ∀ count, prompter.Enters shown count prompter.start (List.replicate count 10)

/-- Shows a blank and, since the input does not come from a keyboard, the line that is entered. -/
def echoing : Prompter Answers where
  start := .empty
  ask answers input :=
    let (next, console) := answers.next (.ofInput input)
    match next with
    | .ok (some line, answers) =>
      ⟨.ok (.line line), Text.encodeUtf8 (" " ++ line ++ "\n"), answers, console.input⟩
    | .ok (none, answers) => ⟨.ok (.ended (Text.encodeUtf8 " ")), [], answers, console.input⟩
    | .error error => ⟨.error (.encoding error), Text.encodeUtf8 " ", answers, console.input⟩

end Prompter

structure Platform (σ : Type) where
  /-- The bytes that a memory can have. -/
  available : Int
  prompter : Prompter σ
  /-- None where the library for pictures is missing. -/
  renderer : Option Renderer

/-- Memory up to 64 GiB, a prompt for an input that is no keyboard, and no library for pictures. -/
def Platform.plain : Platform Answers := ⟨2 ^ 36, .echoing, none⟩

end MiniA64
