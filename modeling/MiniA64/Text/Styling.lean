/-!
# Plain text

Terminals take an escape character, an opening bracket, parameters and a letter as an instruction
to style what follows or to move. Text that does not go to a terminal is shown without such
sequences. An escape that begins none of them is kept.
-/

namespace MiniA64.Text

def isParameter (c : Char) : Bool := c.isDigit || c = ';' || c = '?'

/-- What follows a control sequence, if the text begins with one. -/
def afterControl? : List Char → Option (List Char)
  | '\x1b' :: '[' :: rest =>
    match rest.dropWhile isParameter with
    | c :: after => if c.isAlpha then some after else none
    | [] => none
  | _ => none

theorem length_afterControl?_lt {text after : List Char} (h : afterControl? text = some after) :
    after.length < text.length := by
  unfold afterControl? at h
  split at h
  · rename_i rest
    have hrest := (List.dropWhile_sublist (l := rest) isParameter).length_le
    split at h
    · rename_i last tail heq
      rw [heq] at hrest
      split at h
      · cases h
        simp only [List.length_cons] at hrest ⊢
        omega
      · cases h
    · cases h
  · cases h

/-- Continues with a text, after the characters kept so far in reverse order. -/
def plainFrom (kept text : List Char) : List Char :=
  match _h : afterControl? text with
  | some after => plainFrom kept after
  | none =>
    match text with
    | [] => kept.reverse
    | c :: rest => plainFrom (c :: kept) rest
  termination_by text.length
  decreasing_by
    · exact length_afterControl?_lt _h
    · simp

/-- A text without control sequences. -/
def plain (text : String) : String := String.ofList (plainFrom [] text.toList)

end MiniA64.Text
