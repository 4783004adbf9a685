import MiniA64.Machine.Attempt

/-!
# Sound framebuffers

A framebuffer is sound if the rows of its grid are those that its size asks for, and if the sizes
that a grid can have are lengths of rows. Drawing on a sound framebuffer finds every cell that it
looks for, so the partial operations of drawing do not escape, and it leaves the framebuffer sound.
-/

namespace MiniA64

/-- A grid of this size can be made: it has no rows, or they have a length. -/
def CanvasSize.HasRoom (size : CanvasSize) : Prop :=
  0 < size.height → Escape.isLength size.width = true

/-- Every grid that a machine of this configuration asks for can be made. -/
structure Config.HasRoom (config : Config) : Prop where
  defaultCanvas : config.defaultCanvas.HasRoom
  /-- Requested widths are small, so that only the bound on them can be too small. -/
  maxCanvas : 0 < config.maxCanvas.height → -2 ^ 63 ≤ config.maxCanvas.width

namespace Surface

structure Sound (surface : Surface) : Prop where
  room : surface.size.HasRoom
  rows : surface.rows.size = surface.size.height.toNat
  row : ∀ row ∈ surface.rows, row.size = surface.size.width.toNat

theorem sound_blank {size : CanvasSize} (room : size.HasRoom) : (blank size).Sound where
  room := room
  rows := Array.size_replicate
  row row mem := by
    rw [blank, Array.mem_replicate] at mem
    rw [mem.2, Array.size_replicate]
    rfl

/-- Every place inside the size of a sound grid has a row and a cell in it. -/
theorem Sound.getElem {surface : Surface} (sound : surface.Sound) {x y : Int}
    (inside : surface.contains x y = true) :
    ∃ row cell, surface.rows[y.toNat]? = some row ∧ row[x.toNat]? = some cell := by
  simp only [contains, Bool.and_eq_true, decide_eq_true_eq] at inside
  have height := sound.rows
  have below : y.toNat < surface.rows.size := by omega
  have width := sound.row surface.rows[y.toNat] (Array.getElem_mem below)
  have left : x.toNat < surface.rows[y.toNat].size := by omega
  exact ⟨surface.rows[y.toNat], surface.rows[y.toNat][x.toNat],
    Array.getElem?_eq_getElem below, Array.getElem?_eq_getElem left⟩

theorem Sound.plot {surface : Surface} (sound : surface.Sound) (x y : Int) (cell : Cell) :
    (surface.plot x y cell).Sound := by
  unfold Surface.plot
  split
  · refine ⟨sound.room, (Array.size_modify ..).trans sound.rows, ?_⟩
    intro row mem
    obtain ⟨index, below, rfl⟩ := Array.mem_iff_getElem.mp mem
    rw [Array.getElem_modify]
    split
    · rw [Array.size_setIfInBounds]
      exact sound.row _ (Array.getElem_mem _)
    · exact sound.row _ (Array.getElem_mem _)
  · exact sound

end Surface

namespace Framebuffer

structure Sound (screen : Framebuffer) : Prop where
  defaultSize : screen.defaultSize.HasRoom
  maxSize : 0 < screen.maxSize.height → -2 ^ 63 ≤ screen.maxSize.width
  surface : ∀ surface ∈ screen.surface, surface.Sound

theorem sound_new {config : Config} (room : config.HasRoom) :
    (new config.defaultCanvas config.maxCanvas).Sound where
  defaultSize := room.defaultCanvas
  maxSize := room.maxCanvas
  surface _ mem := nomatch mem

namespace Sound

variable {screen : Framebuffer}

theorem activeSurface (sound : screen.Sound) : screen.activeSurface.Sound := by
  unfold Framebuffer.activeSurface
  cases drawn : screen.surface with
  | none => exact Surface.sound_blank sound.defaultSize
  | some surface => exact sound.surface surface drawn

theorem activate (sound : screen.Sound) : screen.activate.Sound where
  defaultSize := sound.defaultSize
  maxSize := sound.maxSize
  surface surface mem := by
    cases mem
    exact sound.activeSurface

theorem clear (sound : screen.Sound) : screen.clear.Sound where
  defaultSize := sound.defaultSize
  maxSize := sound.maxSize
  surface surface mem := by
    obtain ⟨old, drawn, rfl⟩ := Option.map_eq_some_iff.mp mem
    exact Surface.sound_blank (sound.surface old drawn).room

theorem size (sound : screen.Sound) : screen.size.HasRoom := by
  unfold Framebuffer.size
  cases drawn : screen.surface with
  | none => exact sound.defaultSize
  | some surface => exact (sound.surface surface drawn).room

theorem setColors (sound : screen.Sound) (foreground background : Int) :
    (screen.setColors foreground background).Sound :=
  ⟨sound.defaultSize, sound.maxSize, sound.surface⟩

theorem resetColors (sound : screen.Sound) : screen.resetColors.Sound :=
  ⟨sound.defaultSize, sound.maxSize, sound.surface⟩

/-- A requested size is at most a byte, and at least one or the bound. -/
theorem setCanvas (sound : screen.Sound) (width height : Int) :
    (screen.setCanvas width height).Sound where
  defaultSize := sound.defaultSize
  maxSize := sound.maxSize
  surface surface mem := by
    cases mem
    apply Surface.sound_blank
    intro positive
    have bound := sound.maxSize
    simp only [extent] at positive ⊢
    simp only [Escape.isLength, Bool.and_eq_true, decide_eq_true_eq]
    omega

theorem plot (sound : screen.Sound) (dot : Dot) : (screen.plot dot).Sound where
  defaultSize := sound.defaultSize
  maxSize := sound.maxSize
  surface surface mem := by
    obtain ⟨old, drawn, rfl⟩ := Option.map_eq_some_iff.mp mem
    exact (sound.surface old drawn).plot ..

theorem draw (sound : screen.Sound) (dots : List Dot) : (screen.draw dots).Sound := by
  induction dots generalizing screen with
  | nil => exact sound
  | cons dot dots ih => exact ih (sound.plot dot)

end Sound

theorem isActive_activate (screen : Framebuffer) : screen.activate.isActive = true := rfl

theorem isActive_plot (screen : Framebuffer) (dot : Dot) :
    (screen.plot dot).isActive = screen.isActive :=
  Option.isSome_map

end Framebuffer

namespace Drawing

/-- A line consists of the character that is asked for. -/
theorem char_of_mem_line {x1 y1 x2 y2 char : Int} {dot : Dot}
    (mem : dot ∈ line x1 y1 x2 y2 char) : dot.char = char := by
  unfold line at mem
  split at mem
  · obtain ⟨x, -, rfl⟩ := List.mem_map.mp mem
    rfl
  split at mem
  · obtain ⟨y, -, rfl⟩ := List.mem_map.mp mem
    rfl
  · cases mem

theorem char_of_mem_boxRow {x width y : Int} {ends middle : Char} {dot : Dot}
    (mem : dot ∈ boxRow x width y ends middle) : dot.char = ends.toNat ∨ dot.char = middle.toNat := by
  simp only [boxRow, List.cons_append, List.mem_cons, List.mem_append, List.mem_map,
    List.not_mem_nil, or_false] at mem
  obtain rfl | ⟨i, -, rfl⟩ | rfl := mem
  · exact .inl rfl
  · exact .inr rfl
  · exact .inl rfl

/-- The characters of a box are bytes. -/
theorem char_of_mem_box {x y width height : Int} {dot : Dot} (mem : dot ∈ box x y width height) :
    0 ≤ dot.char ∧ dot.char < 256 := by
  simp only [box, List.mem_append, List.mem_flatMap] at mem
  obtain (edge | ⟨j, -, side⟩) | edge := mem
  · obtain char | char := char_of_mem_boxRow edge <;> rw [char] <;> decide
  · obtain char | char := char_of_mem_boxRow side <;> rw [char] <;> decide
  · obtain char | char := char_of_mem_boxRow edge <;> rw [char] <;> decide

end Drawing

/-! ## Attempts to draw -/

namespace Attempt

theorem byte_eq {value : Int} (nonneg : 0 ≤ value) (below : value < 256) :
    byte value = .ok (UInt8.ofNat value.toNat) :=
  if_pos ⟨nonneg, below⟩

theorem room_eq {size : CanvasSize} (room : size.HasRoom) : Attempt.room size = .ok () := by
  unfold Attempt.room
  by_cases positive : 0 < size.height
  · simp [positive, room positive]
  · simp [positive]

variable {screen : Framebuffer}

theorem activate_eq (sound : screen.Sound) : activate screen = .ok screen.activate := by
  unfold activate
  split
  · rfl
  · rw [room_eq sound.defaultSize]
    rfl

theorem clear_eq (sound : screen.Sound) : clear screen = .ok screen.activate.clear := by
  unfold clear
  rw [activate_eq sound]
  show (do room screen.activate.size; .ok screen.activate.clear) = _
  rw [room_eq sound.activate.size]
  rfl

theorem setColors_eq (sound : screen.Sound) (foreground background : Int) :
    setColors foreground background screen =
      .ok (screen.activate.setColors foreground background) := by
  unfold setColors
  rw [activate_eq sound]
  rfl

theorem setCanvas_eq (sound : screen.Sound) (width height : Int) :
    setCanvas width height screen = .ok (screen.setCanvas width height) := by
  unfold setCanvas
  rw [room_eq (sound.setCanvas width height).size]
  rfl

/-- On a grid that is there, a dot outside of it is not drawn and a dot inside has its cell. -/
theorem plot_eq (sound : screen.Sound) (active : screen.isActive = true) {dot : Dot}
    (char : 0 ≤ dot.char ∧ dot.char < 256) : plot screen dot = .ok (screen.plot dot) := by
  obtain ⟨surface, drawn⟩ := Option.isSome_iff_exists.mp active
  have size : screen.size = surface.size := by rw [Framebuffer.size, drawn]
  have inside : screen.isInside dot = surface.contains dot.x dot.y := by
    rw [Framebuffer.isInside, size]
    rfl
  unfold plot
  rw [inside]
  split
  · rename_i contained
    obtain ⟨row, cell, hrow, hcell⟩ := (sound.surface surface drawn).getElem contained
    have colors : (screen.foreground.val + 16 * screen.background.val : Int) < 256 := by omega
    have shown : 0 ≤ (if dot.char = 0 then 32 else dot.char) ∧
        (if dot.char = 0 then 32 else dot.char) < 256 := by
      split
      · decide
      · exact char
    simp only [drawn, Option.map_some, Option.getD_some, element, hrow, hcell,
      byte_eq shown.1 shown.2, byte_eq (by omega) colors, bind, Except.bind]
  · rename_i outside
    have kept : surface.plot dot.x dot.y (screen.cellOf (UInt8.ofNat (dot.char % 256).toNat)) =
        surface := if_neg outside
    rw [Framebuffer.plot, drawn, Option.map_some, kept, ← drawn]

theorem foldlM_plot_eq (sound : screen.Sound) (active : screen.isActive = true) {dots : List Dot}
    (chars : ∀ dot ∈ dots, 0 ≤ dot.char ∧ dot.char < 256) :
    dots.foldlM plot screen = .ok (screen.draw dots) := by
  induction dots generalizing screen with
  | nil => rfl
  | cons dot dots ih =>
    rw [List.foldlM_cons, plot_eq sound active (chars dot List.mem_cons_self)]
    exact ih (sound.plot dot) ((screen.isActive_plot dot).trans active) fun other mem ↦
      chars other (List.mem_cons_of_mem dot mem)

theorem draw_eq (sound : screen.Sound) {dots : List Dot}
    (chars : ∀ dot ∈ dots, 0 ≤ dot.char ∧ dot.char < 256) :
    draw dots screen = .ok (screen.activate.draw dots) := by
  unfold draw
  rw [activate_eq sound]
  exact foldlM_plot_eq sound.activate screen.isActive_activate chars

end Attempt

end MiniA64
