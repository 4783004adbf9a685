import MiniA64.Machine.Picture
import MiniA64.Proofs.Machine.Screens

/-!
# Pictures and the strokes of a renderer

The picture of a sound grid is the image that its strokes leave on black, without the characters:
it has the size that a renderer is asked for, and each of its pixels is covered by the block of one
cell, the one that the picture takes the colour from.
-/

namespace MiniA64

/-- The colour in which a stroke covers a pixel. Characters cover what their font says. -/
def Stroke.fill? (x y : Int) : Stroke → Option (Nat × Nat × Nat)
  | .rectangle left top right bottom fill =>
    if (left ≤ x ∧ x ≤ right) ∧ top ≤ y ∧ y ≤ bottom then some fill else none
  | .text .. => none

/-- The colour of a pixel. -/
def Picture.pixel? (picture : Picture) (x y : Nat) : Option Color := do
  let row ← (Run.expand picture.rows)[y]?
  (Run.expand row)[x]?

/-- Runs of one length hold at each place the value of the run that the place falls into. -/
theorem Run.getElem?_expand_map {α β : Type} {count : Nat} (positive : 0 < count) (value : α → β)
    (items : List α) (place : Nat) :
    (expand (items.map fun item ↦ ⟨count, value item⟩))[place]? =
      (items[place / count]?).map value := by
  induction items generalizing place with
  | nil => rfl
  | cons item items ih =>
    rw [List.map_cons, expand_cons, List.getElem?_append, List.length_replicate]
    by_cases inside : place < count
    · rw [if_pos inside, List.getElem?_replicate, if_pos inside, Nat.div_eq_of_lt inside]
      rfl
    · have next : place / count = (place - count) / count + 1 :=
        Nat.div_eq_sub_div positive (Nat.le_of_not_lt inside)
      rw [if_neg inside, ih, next, List.getElem?_cons_succ]

theorem Run.getElem?_expand_single {α : Type} (count : Nat) (value : α) (place : Nat) :
    (expand [⟨count, value⟩])[place]? = if place < count then some value else none := by
  rw [expand_cons, expand, List.flatMap_nil, List.append_nil, List.getElem?_replicate]

/-- Numbered items of which only one gives something give what that one gives. -/
theorem flatMap_zipIdx_of_single {α β : Type} {give : α × Nat → List β} {only : α → List β}
    {place first : Nat}
    (single : ∀ item index, give (item, index) = if index = first + place then only item else [])
    (items : List α) :
    (items.zipIdx first).flatMap give = ((items[place]?).map only).getD [] := by
  induction items generalizing first place with
  | nil => rfl
  | cons item items ih =>
    rw [List.zipIdx_cons, List.flatMap_cons, single]
    cases place with
    | zero =>
      have rest : (items.zipIdx (first + 1)).flatMap give = [] := by
        rw [List.flatMap_eq_nil_iff]
        intro numbered mem
        have later := List.le_snd_of_mem_zipIdx mem
        rw [single, if_neg (by omega)]
      rw [if_pos (Nat.add_zero first).symm, rest, List.append_nil]
      rfl
    | succ place =>
      have shifted (item : α) (index : Nat) :
          give (item, index) = if index = first + 1 + place then only item else [] := by
        rw [single, Nat.add_assoc, Nat.add_comm 1]
      rw [if_neg (by omega), List.nil_append, ih shifted, List.getElem?_cons_succ]

/-- A block of a given extent covers the pixels that its number is their quotient of. -/
theorem covers_iff {extent : Int} (positive : 0 < extent) (index pixel : Nat) :
    (index * extent ≤ pixel ∧ (pixel : Int) ≤ index * extent + extent - 1) ↔
      index = pixel / extent.toNat := by
  obtain ⟨count, rfl⟩ := Int.eq_ofNat_of_zero_le (Int.le_of_lt positive)
  rw [Int.toNat_natCast, eq_comm, Nat.div_eq_iff (Int.natCast_pos.mp positive),
    ← Int.natCast_mul]
  omega

/-- The characters of a cell cover no pixel, and its block those that fall into it. -/
theorem Cell.filterMap_strokes {size : CanvasSize} (wide : 0 < size.width) (high : 0 < size.height)
    (x y column row : Nat) (cell : Cell) :
    (cell.strokes size (column * size.width) (row * size.height)).filterMap (Stroke.fill? x y) =
      if column = x / size.width.toNat then
        if row = y / size.height.toNat then [cell.background.rgb] else []
      else [] := by
  have characters : (if cell.char = 32 then []
      else [Stroke.text (column * size.width + 1) (row * size.height + 1) cell.char
        cell.foreground.rgb]).filterMap (Stroke.fill? x y) = [] := by
    split <;> rfl
  rw [Cell.strokes, List.filterMap_cons, characters, Stroke.fill?]
  simp only [covers_iff wide, covers_iff high]
  by_cases across : column = x / size.width.toNat
  · by_cases down : row = y / size.height.toNat
    · rw [if_pos ⟨across, down⟩, if_pos across, if_pos down]
    · rw [if_neg (fun both ↦ down both.2), if_pos across, if_neg down]
  · rw [if_neg (fun both ↦ across both.1), if_neg across]

namespace Surface

variable {surface : Surface} {size : CanvasSize}

theorem strokes_eq : surface.strokes size =
    surface.rows.toList.zipIdx.flatMap fun numbered ↦
      numbered.1.toList.zipIdx.flatMap fun placed ↦
        placed.1.strokes size (placed.2 * size.width) (numbered.2 * size.height) := rfl

/-- The blocks over a pixel: that of one cell, if there is a cell. -/
theorem filterMap_strokes (wide : 0 < size.width) (high : 0 < size.height) (x y : Nat) :
    (surface.strokes size).filterMap (Stroke.fill? x y) =
      (((surface.rows[y / size.height.toNat]?).bind fun row ↦
        row[x / size.width.toNat]?).map (·.background.rgb)).toList := by
  have ofRow (row : Array Cell) (number : Nat) :
      (row.toList.zipIdx.flatMap fun placed ↦
        placed.1.strokes size (placed.2 * size.width) (number * size.height)).filterMap
          (Stroke.fill? x y) =
        if number = 0 + y / size.height.toNat then
          ((row[x / size.width.toNat]?).map (·.background.rgb)).toList
        else [] := by
    have ofCell (cell : Cell) (index : Nat) :
        (cell.strokes size (index * size.width) (number * size.height)).filterMap
            (Stroke.fill? x y) =
          if index = 0 + x / size.width.toNat then
            if number = y / size.height.toNat then [cell.background.rgb] else []
          else [] := by
      rw [Cell.filterMap_strokes wide high, Nat.zero_add]
    rw [List.filterMap_flatMap, flatMap_zipIdx_of_single ofCell, Nat.zero_add,
      ← Array.getElem?_toList]
    split <;> cases row.toList[x / size.width.toNat]? <;> rfl
  rw [strokes_eq, List.filterMap_flatMap, flatMap_zipIdx_of_single ofRow, Array.getElem?_toList]
  cases surface.rows[y / size.height.toNat]? <;> rfl

/-- A sound grid with cells has one for each pixel that it is drawn on. -/
theorem Sound.isSome_cell_iff (sound : surface.Sound) (wide : 0 < size.width)
    (high : 0 < size.height) (cells : 0 < surface.size.width ∧ 0 < surface.size.height)
    (x y : Nat) :
    ((surface.rows[y / size.height.toNat]?).bind fun row ↦ row[x / size.width.toNat]?).isSome ↔
      x < (surface.size.width * size.width).toNat ∧
        y < (surface.size.height * size.height).toNat := by
  rw [Int.toNat_mul (Int.le_of_lt cells.1) (Int.le_of_lt wide),
    Int.toNat_mul (Int.le_of_lt cells.2) (Int.le_of_lt high),
    ← Nat.div_lt_iff_lt_mul (Int.pos_iff_toNat_pos.mp wide),
    ← Nat.div_lt_iff_lt_mul (Int.pos_iff_toNat_pos.mp high), ← sound.rows]
  by_cases below : y / size.height.toNat < surface.rows.size
  · have length := sound.row _ (Array.getElem_mem below)
    rw [Array.getElem?_eq_getElem below, Option.bind_some, isSome_getElem?, length]
    exact (and_iff_left below).symm
  · rw [Array.getElem?_eq_none (Nat.le_of_not_lt below)]
    exact ⟨nofun, fun inside ↦ absurd inside.2 below⟩

theorem Sound.strokes_eq_nil (sound : surface.Sound)
    (empty : ¬(0 < surface.size.width ∧ 0 < surface.size.height)) : surface.strokes size = [] := by
  rw [strokes_eq, List.flatMap_eq_nil_iff]
  rintro ⟨row, number⟩ mem
  have here : row ∈ surface.rows := Array.mem_toList_iff.mp (List.fst_mem_of_mem_zipIdx mem)
  have high := Array.size_pos_of_mem here
  have none : row.size = 0 := by
    have height := sound.rows
    have width := sound.row row here
    omega
  rw [Array.eq_empty_of_size_eq_zero none]
  rfl

end Surface

namespace Picture

variable {surface : Surface} {size : CanvasSize}

theorem pixel?_of_cells (wide : 0 < size.width) (high : 0 < size.height) (width height x y : Nat) :
    pixel? ⟨width, height, Run.join (surface.rows.toList.map fun row ↦
      ⟨size.height.toNat, pixels size.width.toNat row.toList⟩)⟩ x y =
      ((surface.rows[y / size.height.toNat]?).bind fun row ↦
        row[x / size.width.toNat]?).map (·.background) := by
  unfold pixel? pixels
  dsimp only
  rw [Run.expand_join, Run.getElem?_expand_map (Int.pos_iff_toNat_pos.mp high),
    Array.getElem?_toList]
  cases surface.rows[y / size.height.toNat]? with
  | none => rfl
  | some row =>
    change (Run.expand (Run.join _))[x]? = (row[x / size.width.toNat]?).map (·.background)
    rw [Run.expand_join, Run.getElem?_expand_map (Int.pos_iff_toNat_pos.mp wide),
      Array.getElem?_toList]

theorem pixel?_of_block (width height : Nat) (color : Color) (x y : Nat) :
    pixel? ⟨width, height, [⟨height, [⟨width, color⟩]⟩]⟩ x y =
      if x < width ∧ y < height then some color else none := by
  unfold pixel?
  rw [Run.getElem?_expand_single]
  by_cases below : y < height
  · rw [if_pos below]
    change (Run.expand [⟨width, color⟩])[x]? = _
    rw [Run.getElem?_expand_single]
    simp only [below, and_true]
  · rw [if_neg below, if_neg (fun inside ↦ below inside.2)]
    rfl

/--
A picture of a sound grid has the size that a renderer is asked for, and each of its pixels has the
colour of the last block that is drawn over it, or is black if none is.
-/
theorem pixel?_ofSurface (sound : surface.Sound) {picture : Picture}
    (made : ofSurface surface size = .ok picture) :
    picture.width = surface.size.width * size.width ∧
      picture.height = surface.size.height * size.height ∧
      ∀ x y : Nat, (picture.pixel? x y).map Color.rgb =
        if x < picture.width ∧ y < picture.height then
          some (((surface.strokes size).filterMap (Stroke.fill? x y)).getLastD Color.black.rgb)
        else none := by
  unfold ofSurface at made
  dsimp only at made
  split at made
  · cases made
  split at made
  · cases made
  split at made
  · cases made
  split at made
  · cases made
  rename_i signs narrow low full
  cases made
  obtain ⟨width, height⟩ := not_or.mp signs
  refine ⟨Int.toNat_of_nonneg (Int.not_lt.mp width), Int.toNat_of_nonneg (Int.not_lt.mp height),
    fun x y ↦ ?_⟩
  dsimp only
  by_cases cells : 0 < surface.size.width ∧ 0 < surface.size.height
  · have shown : (decide (0 < surface.size.width) && decide (0 < surface.size.height)) = true := by
      rw [decide_eq_true cells.1, decide_eq_true cells.2, Bool.and_self]
    rw [shown, Bool.true_and, decide_eq_true_eq, Int.not_le] at narrow low
    have inside := sound.isSome_cell_iff narrow low cells x y
    rw [if_pos shown, pixel?_of_cells narrow low, Surface.filterMap_strokes narrow low]
    cases found : (surface.rows[y / size.height.toNat]?).bind fun row ↦
        row[x / size.width.toNat]? with
    | none =>
      rw [found] at inside
      rw [if_neg (fun pixel ↦ Bool.false_ne_true (inside.mpr pixel))]
      rfl
    | some cell =>
      rw [found] at inside
      rw [if_pos (inside.mp rfl)]
      rfl
  · have hidden : (decide (0 < surface.size.width) && decide (0 < surface.size.height)) ≠ true := by
      simpa using cells
    rw [if_neg hidden, sound.strokes_eq_nil cells, pixel?_of_block]
    split <;> rfl

end Picture

end MiniA64
