import MiniA64.Proofs.Machine.Canvases

/-!
# Boxes

A box takes a block of columns and a block of rows. Its corners, its edges and its blank interior
are drawn as three loops of single cells, some of which come to the same place more than once when
there are few columns or rows. All that comes to one place is the same character there, so the order
does not matter: every cell of the block that is on the canvas gets its character in the current
colours, and every other cell stays.

The block is the one that is asked for if it has columns and rows. No column at all is drawn as two
of them, the second of which is the one that is named, and no row likewise. Such a box changes cells
although there are none in the block that is asked for.
-/

namespace MiniA64

namespace Surface

/-- A plot changes the cell at its place, if there is one, and no other. -/
theorem cellAt?_plot (surface : Surface) (x y : Int) (cell : Cell) (column row : Int) :
    (surface.plot x y cell).cellAt? column row =
      (surface.cellAt? column row).map fun old ↦ if column = x ∧ row = y then cell else old := by
  have contained : (surface.plot x y cell).contains column row = surface.contains column row := by
    rw [contains, contains, size_plot]
  unfold cellAt?
  rw [contained]
  cases here : surface.contains column row with
  | false => rfl
  | true =>
    simp only [if_true]
    unfold Surface.plot
    split
    · rename_i inside
      simp only [contains, Bool.and_eq_true, decide_eq_true_eq] at here inside
      rw [Array.getElem?_modify]
      cases found : surface.rows[row.toNat]? with
      | none => simp
      | some cells =>
        by_cases sameRow : row = y
        · by_cases sameColumn : column = x
          · by_cases below : x.toNat < cells.size
            · simp [sameRow, sameColumn, below]
            · simp [sameRow, sameColumn, below]
          · have other : ¬ x.toNat = column.toNat := by omega
            simp [sameRow, sameColumn, other]
        · have other : ¬ y.toNat = row.toNat := by omega
          simp [sameRow, other]
    · rename_i outside
      -- The place of the plot is off the canvas, and this one is not.
      have other : ¬ (column = x ∧ row = y) := by
        rintro ⟨rfl, rfl⟩
        exact outside here
      simp [other]

end Surface

namespace Drawing

/-! ## Blocks of columns and rows -/

/-- Columns or rows that are next to each other. -/
structure Span where
  first : Int
  count : Int
  deriving DecidableEq, Repr

namespace Span

def Has (span : Span) (index : Int) : Prop :=
  span.first ≤ index ∧ index < span.first + span.count

/-- The first or the last one. -/
def IsEnd (span : Span) (index : Int) : Prop :=
  index = span.first ∨ index = span.first + span.count - 1

instance (span : Span) (index : Int) : Decidable (span.Has index) :=
  inferInstanceAs (Decidable (_ ∧ _))

instance (span : Span) (index : Int) : Decidable (span.IsEnd index) :=
  inferInstanceAs (Decidable (_ ∨ _))

/-- The columns or rows that a box takes: those that are asked for, or two in the place of none. -/
def ofBox (first count : Int) : Span :=
  if count = 0 then ⟨first - 1, 2⟩ else ⟨first, count⟩

variable {first count index : Int}

theorem isEnd_ofBox : (ofBox first count).IsEnd index ↔ index = first ∨ index = first + count - 1 := by
  unfold ofBox IsEnd
  split
  · dsimp only
    omega
  · rfl

theorem has_ofBox (nonneg : 0 ≤ count) :
    (ofBox first count).Has index ↔ (ofBox first count).IsEnd index ∨
      ∃ offset ∈ interval 1 (count - 1), index = first + offset := by
  rw [isEnd_ofBox]
  simp only [interval, List.mem_map, List.mem_range]
  constructor
  · intro has
    unfold ofBox Has at has
    by_cases isEnd : index = first ∨ index = first + count - 1
    · exact .inl isEnd
    · refine .inr ⟨index - first, ⟨(index - first - 1).toNat, ?_, ?_⟩, ?_⟩ <;>
        split at has <;> dsimp only at has <;> omega
  · unfold ofBox Has
    rintro (isEnd | ⟨_, ⟨step, below, rfl⟩, rfl⟩) <;> split <;> dsimp only <;> omega

/-- What is strictly between the ends is at none of them. -/
theorem not_isEnd_of_mem {offset : Int} (between : offset ∈ interval 1 (count - 1)) :
    ¬ (ofBox first count).IsEnd (first + offset) := by
  rw [isEnd_ofBox]
  simp only [interval, List.mem_map, List.mem_range] at between
  obtain ⟨step, below, rfl⟩ := between
  omega

end Span

/-! ## The cells of a box -/

/-- The character of a box at a place: corners, edges and blanks inside of them. -/
def borderAt (columns rows : Span) (column row : Int) : Char :=
  if rows.IsEnd row then if columns.IsEnd column then '+' else '-'
  else if columns.IsEnd column then '|' else ' '

variable {x y width height : Int} {dot : Dot}

theorem mem_boxRow (nonneg : 0 ≤ width) {ends middle : Char} :
    dot ∈ boxRow x width y ends middle ↔ (Span.ofBox x width).Has dot.x ∧ dot.y = y ∧
      dot.char = (if (Span.ofBox x width).IsEnd dot.x then ends else middle).toNat := by
  obtain ⟨column, row, char⟩ := dot
  simp only [boxRow, List.cons_append, List.mem_cons, List.mem_append, List.mem_map,
    List.not_mem_nil, or_false, Dot.mk.injEq]
  rw [Span.has_ofBox nonneg]
  constructor
  · rintro (⟨rfl, rfl, rfl⟩ | ⟨offset, between, rfl, rfl, rfl⟩ | ⟨rfl, rfl, rfl⟩)
    · have isEnd : (Span.ofBox column width).IsEnd column := Span.isEnd_ofBox.mpr (.inl rfl)
      exact ⟨.inl isEnd, rfl, by rw [if_pos isEnd]⟩
    · exact ⟨.inr ⟨offset, between, rfl⟩, rfl, by rw [if_neg (Span.not_isEnd_of_mem between)]⟩
    · have isEnd : (Span.ofBox x width).IsEnd (x + width - 1) := Span.isEnd_ofBox.mpr (.inr rfl)
      exact ⟨.inl isEnd, rfl, by rw [if_pos isEnd]⟩
  · rintro ⟨isEnd | ⟨offset, between, rfl⟩, rfl, char⟩
    · rw [if_pos isEnd] at char
      obtain rfl | rfl := Span.isEnd_ofBox.mp isEnd
      · exact .inl ⟨rfl, rfl, char⟩
      · exact .inr (.inr ⟨rfl, rfl, char⟩)
    · rw [if_neg (Span.not_isEnd_of_mem between)] at char
      exact .inr (.inl ⟨offset, between, rfl, rfl, char.symm⟩)

/-- A box consists of its block, with the character that belongs to each place. -/
theorem mem_box (wide : 0 ≤ width) (high : 0 ≤ height) :
    dot ∈ box x y width height ↔
      (Span.ofBox x width).Has dot.x ∧ (Span.ofBox y height).Has dot.y ∧
        dot.char = (borderAt (.ofBox x width) (.ofBox y height) dot.x dot.y).toNat := by
  simp only [box, List.mem_append, List.mem_flatMap, mem_boxRow wide]
  rw [Span.has_ofBox high]
  constructor
  · rintro ((⟨inside, rfl, char⟩ | ⟨offset, between, inside, row, char⟩) | ⟨inside, row, char⟩)
    · have isEnd : (Span.ofBox dot.y height).IsEnd dot.y := Span.isEnd_ofBox.mpr (.inl rfl)
      exact ⟨inside, .inl isEnd, by rw [borderAt, if_pos isEnd, char]⟩
    · have middle := row ▸ Span.not_isEnd_of_mem between
      exact ⟨inside, .inr ⟨offset, between, row⟩, by rw [borderAt, if_neg middle, char]⟩
    · have isEnd : (Span.ofBox y height).IsEnd dot.y := Span.isEnd_ofBox.mpr (.inr row)
      exact ⟨inside, .inl isEnd, by rw [borderAt, if_pos isEnd, char]⟩
  · rintro ⟨inside, isEnd | ⟨offset, between, row⟩, char⟩
    · rw [borderAt, if_pos isEnd] at char
      obtain row | row := Span.isEnd_ofBox.mp isEnd
      · exact .inl (.inl ⟨inside, row, char⟩)
      · exact .inr ⟨inside, row, char⟩
    · rw [borderAt, if_neg (row ▸ Span.not_isEnd_of_mem between)] at char
      exact .inl (.inr ⟨offset, between, inside, row, char⟩)

end Drawing

namespace Framebuffer

/-! ## Drawing on a canvas -/

/-- A character in the current colours. -/
def inked (screen : Framebuffer) (char : Char) : Cell :=
  ⟨UInt8.ofNat char.toNat, screen.foreground, screen.background⟩

theorem plot?_eq {screen : Framebuffer} (active : screen.isActive = true) {dot : Dot}
    (char : 0 ≤ dot.char ∧ dot.char < 256) : screen.plot? dot = .ok (screen.plot dot) := by
  obtain ⟨surface, drawn⟩ := Option.isSome_iff_exists.mp active
  have inside : screen.isInside dot = surface.contains dot.x dot.y := by
    rw [isInside, size, drawn]
    rfl
  unfold plot?
  rw [inside, active]
  cases contained : surface.contains dot.x dot.y with
  | false =>
    have kept : screen.plot dot = screen := by
      unfold plot Surface.plot
      rw [drawn, Option.map_some, contained]
      simp [← drawn]
    rw [kept]
    rfl
  | true =>
    have small : ¬ (dot.char < 0 ∨ 255 < dot.char) := by omega
    simp [small]

theorem draw?_eq {screen : Framebuffer} (active : screen.isActive = true) {dots : List Dot}
    (chars : ∀ dot ∈ dots, 0 ≤ dot.char ∧ dot.char < 256) :
    screen.draw? dots = .ok (screen.draw dots) := by
  induction dots generalizing screen with
  | nil => rfl
  | cons dot dots ih =>
    rw [draw?, List.foldlM_cons, plot?_eq active (chars dot List.mem_cons_self)]
    exact ih ((screen.isActive_plot dot).trans active) fun other mem ↦
      chars other (List.mem_cons_of_mem dot mem)

theorem cellAt?_plot (screen : Framebuffer) (dot : Dot) (column row : Int) :
    (screen.plot dot).cellAt? column row =
      (screen.cellAt? column row).map fun old ↦
        if column = dot.x ∧ row = dot.y then
          screen.cellOf (UInt8.ofNat (dot.char % 256).toNat)
        else old := by
  unfold cellAt? plot
  cases screen.surface with
  | none => rfl
  | some surface => exact surface.cellAt?_plot ..

/-- What is drawn at a place is what all dots there agree on. -/
theorem cellAt?_draw (screen : Framebuffer) {dots : List Dot} {column row char : Int}
    (agree : ∀ dot ∈ dots, dot.x = column → dot.y = row → dot.char = char) :
    (screen.draw dots).cellAt? column row =
      (screen.cellAt? column row).map fun old ↦
        if ⟨column, row, char⟩ ∈ dots then screen.cellOf (UInt8.ofNat (char % 256).toNat)
        else old := by
  induction dots generalizing screen with
  | nil => simp [draw]
  | cons dot dots ih =>
    obtain ⟨first, others⟩ := List.forall_mem_cons.mp agree
    have later := ih (screen.plot dot) others
    have colours : (screen.plot dot).cellOf (UInt8.ofNat (char % 256).toNat) =
        screen.cellOf (UInt8.ofNat (char % 256).toNat) := rfl
    show ((screen.plot dot).draw dots).cellAt? column row = _
    rw [later, cellAt?_plot, Option.map_map, colours]
    congr 1
    funext old
    by_cases again : ⟨column, row, char⟩ ∈ dots
    · simp [again]
    by_cases here : column = dot.x ∧ row = dot.y
    · obtain ⟨rfl, rfl⟩ := here
      obtain rfl := first rfl rfl
      simp
    · have other : ⟨column, row, char⟩ ≠ dot := by
        rintro rfl
        exact here ⟨rfl, rfl⟩
      simp [again, here, other]

/-- The characters of a box are drawn as they are. -/
theorem cellOf_borderAt (screen : Framebuffer) (columns rows : Drawing.Span) (column row : Int) :
    screen.cellOf
        (UInt8.ofNat (((Drawing.borderAt columns rows column row).toNat : Int) % 256).toNat) =
      screen.inked (Drawing.borderAt columns rows column row) := by
  unfold Drawing.borderAt
  split <;> split <;> rfl

/--
On a grid that is there a box is drawn on its block and nowhere else: the cells of the block that
are on the canvas get their characters in the current colours, and all others stay. The block is
the one that is asked for, except that no column is drawn as the named one and the one before it,
and no row as the named one and the one above it.
-/
theorem draw_box {screen : Framebuffer} (active : screen.isActive = true)
    {x y width height : Int} (wide : 0 ≤ width) (high : 0 ≤ height) :
    ∃ after, screen.draw? (Drawing.box x y width height) = .ok after ∧
      after.size = screen.size ∧
      ∀ column row, after.cellAt? column row =
        (screen.cellAt? column row).map fun old ↦
          if (Drawing.Span.ofBox x width).Has column ∧ (Drawing.Span.ofBox y height).Has row then
            screen.inked (Drawing.borderAt (.ofBox x width) (.ofBox y height) column row)
          else old := by
  refine ⟨_, draw?_eq active fun dot ↦ Drawing.char_of_mem_box, screen.size_draw _,
    fun column row ↦ ?_⟩
  have agree : ∀ dot ∈ Drawing.box x y width height, dot.x = column → dot.y = row →
      dot.char = (Drawing.borderAt (.ofBox x width) (.ofBox y height) column row).toNat := by
    rintro dot drawn rfl rfl
    exact ((Drawing.mem_box wide high).mp drawn).2.2
  rw [cellAt?_draw screen agree]
  simp only [Drawing.mem_box wide high, and_true, cellOf_borderAt]

/-- A box of one row that is cut off by the right end of the canvas. -/
theorem draw_box_oneRow :
    let screen := ((new ⟨40, 12⟩ ⟨80, 24⟩).setCanvas 4 3).setColors 1 2
    screen.isActive = true ∧ (0 : Int) ≤ 3 ∧ (0 : Int) ≤ 1 ∧
      ∃ after, screen.draw? (Drawing.box 2 1 3 1) = .ok after ∧ after.size = ⟨4, 3⟩ ∧
        after.cellAt? 1 1 = some Cell.blank ∧ after.cellAt? 2 1 = some ⟨43, 1, 2⟩ ∧
        after.cellAt? 3 1 = some ⟨45, 1, 2⟩ ∧ after.cellAt? 4 1 = none ∧
        after.cellAt? 2 2 = some Cell.blank := by
  intro screen
  have active : screen.isActive = true := rfl
  obtain ⟨after, drawn, size, cells⟩ :=
    draw_box active (x := 2) (y := 1) (show (0 : Int) ≤ 3 by decide) (show (0 : Int) ≤ 1 by decide)
  refine ⟨active, by decide, by decide, after, drawn, size, ?_, ?_, ?_, ?_, ?_⟩ <;>
    rw [cells] <;> rfl

/-- A box without columns at the second column writes into the first one, where it has no place. -/
theorem draw_box_noColumns :
    let screen := (new ⟨40, 12⟩ ⟨80, 24⟩).setCanvas 4 3
    screen.isActive = true ∧ ¬ ((1 : Int) ≤ 0 ∧ (0 : Int) < 1 + 0) ∧
      ∃ after, screen.draw? (Drawing.box 1 0 0 3) = .ok after ∧
        screen.cellAt? 0 1 = some Cell.blank ∧ after.cellAt? 0 1 = some (screen.inked '|') :=
  ⟨rfl, by decide, _, rfl, rfl, rfl⟩

end Framebuffer

end MiniA64
