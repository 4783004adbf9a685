import MiniA64.Assembly.Generator
import MiniA64.Proofs.Assembly.Derivations

/-!
# Places of diagnostics

Every token of a source stands in one of its lines, or right after one. A diagnostic of an assembly
stands where a token stands, so it can show the line: one of the grammar at a token, one of the
selection, of a padding or of a value at a statement or an operand, and one of a symbol table or of
a limit where the name or the bytes were asked for.
-/

namespace MiniA64

/-! ## Lines -/

theorem exists_cons_splitLines (text : List Char) :
    ∃ line later, splitLines text = line :: later := by
  induction text with
  | nil => exact ⟨[], [], rfl⟩
  | cons c rest ih =>
    obtain ⟨line, later, lines⟩ := ih
    rw [splitLines, lines]
    split <;> exact ⟨_, _, rfl⟩

/-- The place is in a line of the source, or right after one. -/
structure Location.Within (source file : String) (location : Location) : Prop where
  file : location.file = file
  line : ∃ line, sourceLine? source location.line = some line ∧
    1 ≤ location.column ∧ location.column ≤ line.length + 1

/-- A line that there is has a number that counts it. -/
theorem line_le_of_lineAt? {lines : List (List Char)} {number : Int} {line : List Char}
    (h : lineAt? lines number = some line) : 1 ≤ number ∧ number ≤ lines.length := by
  unfold lineAt? at h
  split at h
  · cases h
  · obtain ⟨below, -⟩ := List.getElem?_eq_some_iff.mp h
    omega

namespace Cursor

/-- The cursor has come to a column of a line, and the rest of the lines is left. -/
structure At (lines : List (List Char)) (cursor : Cursor) (earlier : List (List Char))
    (begun left : List Char) (later : List (List Char)) : Prop where
  lines : lines = earlier ++ (begun ++ left) :: later
  rest : splitLines cursor.rest = left :: later
  line : cursor.line = earlier.length + 1
  column : cursor.column = begun.length + 1

/-- The cursor stands in one of these lines. -/
def InLines (lines : List (List Char)) (cursor : Cursor) : Prop :=
  ∃ earlier begun left later, cursor.At lines earlier begun left later

variable {lines : List (List Char)} {cursor : Cursor}

theorem inLines_start (source : String) : (start source 1).InLines (splitLines source.toList) := by
  obtain ⟨line, later, split⟩ := exists_cons_splitLines source.toList
  exact ⟨[], [], line, later, split, split, rfl, rfl⟩

theorem InLines.skip (stands : cursor.InLines lines) (count : Nat) :
    (cursor.skip count).InLines lines := by
  induction count generalizing cursor with
  | zero => exact stands
  | succ count ih =>
    obtain ⟨earlier, begun, left, later, split, rest, line, column⟩ := stands
    obtain ⟨_ | ⟨c, text⟩, number, place, offset⟩ := cursor
    · exact ⟨earlier, begun, left, later, split, rest, line, column⟩
    obtain ⟨head, tail, textLines⟩ := exists_cons_splitLines text
    simp only [Cursor.skip]
    simp only [splitLines, textLines] at rest
    dsimp only at line column
    split
    · rename_i newline
      rw [if_pos newline] at rest
      cases rest
      refine ih ⟨earlier ++ [begun], [], head, tail, ?_, textLines, ?_, rfl⟩
      · rw [split, List.append_assoc, List.append_nil]
        rfl
      · simp only [List.length_append, List.length_singleton]
        omega
    · rename_i same
      rw [if_neg same] at rest
      cases rest
      refine ih ⟨earlier, begun ++ [c], head, _, ?_, textLines, line, ?_⟩
      · rw [split, List.append_assoc]
        rfl
      · simp only [List.length_append, List.length_singleton]
        omega

theorem InLines.within {source : String} (stands : cursor.InLines (splitLines source.toList))
    (file : String) : (cursor.location file).Within source file := by
  obtain ⟨earlier, begun, left, later, split, -, line, column⟩ := stands
  have index : (cursor.line - 1).toNat = earlier.length := by omega
  refine ⟨rfl, begun ++ left, ?_, ?_, ?_⟩
  · show lineAt? (splitLines source.toList) cursor.line = some (begun ++ left)
    rw [lineAt?, if_neg (by omega), index, split]
    simp
  · show 1 ≤ cursor.column
    omega
  · show cursor.column ≤ (begun ++ left).length + 1
    rw [List.length_append]
    omega

/-- All tokens from a cursor on stand in lines. -/
theorem within_of_mem_tokens {source file : String}
    (stands : cursor.InLines (splitLines source.toList)) :
    ∀ token ∈ cursor.tokens file, token.location.Within source file := by
  fun_induction Cursor.tokens file cursor with
  | case1 cursor step final =>
    rintro _ (_ | ⟨_, ⟨⟩⟩)
    exact (stands.skip _).within file
  | case2 cursor step going ih =>
    have there := stands.skip (Lexeme.triviaLength false cursor.rest)
    rintro token (_ | ⟨_, member⟩)
    · exact there.within file
    · exact ih (there.skip _) token member

end Cursor

theorem Token.within_of_mem {source file : String} :
    ∀ token ∈ (Cursor.start source 1).tokens file, token.location.Within source file :=
  Cursor.within_of_mem_tokens (Cursor.inLines_start source)

/-- The program itself stands at the beginning. -/
theorem Location.within_top (source file : String) : Within source file ⟨file, 1, 1⟩ :=
  (Cursor.inLines_start source).within file

end MiniA64
