import MiniA64.CommandLine.Platform

/-!
# Empty answers

An input of newlines is an empty answer for each of them. A block of the input is decoded at a time,
so the newlines that are still to be answered are some that have been decoded and others that have
not been read. A prompt for an input that is no keyboard shows the same for each of them.
-/

namespace MiniA64

namespace Text

theorem decodeFrom_newlines (offset count : Nat) :
    decodeFrom offset none (List.replicate count 10) = .ok (List.replicate count '\n') := by
  induction count generalizing offset with
  | zero => rfl
  | succ count ih =>
    rw [List.replicate_succ, decodeFrom]
    have start : startOfChar? 10 = some (10, []) := rfl
    simp only [start, ih]
    rfl

theorem decodeBlock_newlines (count : Nat) :
    decodeBlock (List.replicate count 10) = .ok (List.replicate count '\n', []) := by
  rw [decodeBlock, decodeUtf8, decodeFrom_newlines]

theorem unifyNewlines_newlines (count : Nat) :
    unifyNewlines (List.replicate count '\n') = List.replicate count '\n' := by
  induction count with
  | zero => rfl
  | succ count ih =>
    rw [List.replicate_succ, unifyNewlines, ih]
    · exact fun _ feed ↦ absurd feed (by decide)
    · exact fun feed ↦ absurd feed (by decide)

end Text

namespace Answers

/-- Newlines that have been decoded and no more. -/
def newlines (count : Nat) : Answers := ⟨List.replicate count '\n', [], false⟩

theorem addBlock_newlines (count : Nat) :
    (newlines 0).addBlock (List.replicate (count + 1) 10) = .ok (newlines (count + 1)) := by
  have last : (List.replicate (count + 1) '\n').getLast? = some '\n' := by
    rw [List.getLast?_replicate, if_neg (Nat.succ_ne_zero count)]
  have added : (newlines 0).addText (List.replicate (count + 1) '\n') = newlines (count + 1) := by
    have apart : ('\n' = '\r') = False := by decide
    simp only [addText, newlines, List.isEmpty_replicate, last, Option.some.injEq, apart,
      decide_false, Bool.false_eq_true, if_false, List.nil_append, List.replicate_zero,
      Text.unifyNewlines_newlines]
    rfl
  have block : Text.decodeBlock ((newlines 0).cut ++ List.replicate (count + 1) 10) =
      .ok (List.replicate (count + 1) '\n', []) := Text.decodeBlock_newlines _
  rw [addBlock, block]
  show Except.ok _ = _
  rw [added]
  rfl

theorem contains_newlines (count : Nat) : (newlines (count + 1)).text.contains '\n' = true := by
  rw [newlines, List.replicate_succ, List.contains_cons]
  rfl

theorem fill_decoded (count : Nat) (console : BufferConsole) :
    (newlines (count + 1)).fill console = (.ok (newlines (count + 1)), console) := by
  rw [fill, if_pos (contains_newlines count)]

/-- If nothing is decoded, a block of the input is. -/
theorem fill_newlines {console : BufferConsole} {left : Nat}
    (input : console.input = List.replicate (left + 1) 10) :
    ∃ decoded rest, decoded + rest = left ∧ (newlines 0).fill console =
      (.ok (newlines (decoded + 1)), { console with input := List.replicate rest 10 }) := by
  obtain ⟨taken, takes⟩ : ∃ taken, min blockSize (left + 1) = taken + 1 :=
    ⟨min blockSize (left + 1) - 1, by rw [blockSize]; omega⟩
  have block : console.readBlock blockSize =
      (List.replicate (taken + 1) 10,
        { console with input := List.replicate (left + 1 - blockSize) 10 }) := by
    rw [BufferConsole.readBlock, input, List.take_replicate, List.drop_replicate, takes]
  refine ⟨taken, left + 1 - blockSize, by rw [blockSize] at *; omega, ?_⟩
  rw [fill, if_neg (by decide)]
  split
  · rename_i none
    rw [none, List.replicate_succ] at input
    cases input
  · rw [block, addBlock_newlines]
    exact fill_decoded ..

/-- As many newlines are to be answered, decoded or not. -/
def Awaits (answers : Answers) (input : List UInt8) (count : Nat) : Prop :=
  ∃ decoded left, decoded + left = count ∧ answers = newlines decoded ∧
    input = List.replicate left 10

theorem split_newlines (count : Nat) : (newlines (count + 1)).split = ("", newlines count) := by
  rw [newlines, split, List.replicate_succ]
  rfl

/-- The next answer to a newline is empty, and one newline less is to be answered. -/
theorem Awaits.next {answers : Answers} {console : BufferConsole} {count : Nat}
    (awaits : answers.Awaits console.input (count + 1)) :
    ∃ answers' input, answers.next console = (.ok (some "", answers'), { console with input }) ∧
      answers'.Awaits input count := by
  obtain ⟨decoded, left, sum, rfl, input⟩ := awaits
  obtain ⟨decoded', rest, sum', filled⟩ : ∃ decoded' rest, decoded' + rest = count ∧
      (newlines decoded).fill console =
        (.ok (newlines (decoded' + 1)), { console with input := List.replicate rest 10 }) := by
    cases decoded with
    | zero =>
      obtain rfl : left = count + 1 := by omega
      exact fill_newlines input
    | succ decoded => exact ⟨decoded, left, by omega, by rw [fill_decoded, ← input]⟩
  refine ⟨newlines decoded', List.replicate rest 10, ?_, decoded', rest, sum', rfl, rfl⟩
  rw [Answers.next, filled]
  show (Except.ok (some (newlines (decoded' + 1)).split.1, (newlines (decoded' + 1)).split.2), _) =
    _
  rw [split_newlines]

end Answers

namespace Prompter

theorem echoing_enters {answers : Answers} {input : List UInt8} {count : Nat}
    (awaits : answers.Awaits input count) :
    echoing.Enters (Text.encodeUtf8 " \n") count answers input := by
  induction count generalizing answers input with
  | zero => trivial
  | succ count ih =>
    obtain ⟨answers', rest, next, awaits'⟩ :=
      Answers.Awaits.next (show answers.Awaits (BufferConsole.ofInput input).input _ from awaits)
    refine ⟨answers', rest, ?_, ih awaits'⟩
    dsimp only [echoing]
    rw [next]
    rfl

theorem echoing_takesNewlines : echoing.TakesNewlines (Text.encodeUtf8 " \n") :=
  fun count ↦ echoing_enters ⟨0, count, Nat.zero_add count, rfl, rfl⟩

end Prompter

end MiniA64
