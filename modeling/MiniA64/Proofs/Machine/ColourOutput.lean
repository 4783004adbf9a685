import MiniA64.Proofs.Assembly.Checks
import MiniA64.Proofs.Machine.Canvases

/-!
# Reading colour output back

A framebuffer is written to a terminal as bytes: characters, with sequences between them that set
the colours and end the rows. The colours are set only where they change, and anew in each row. Here
is what a terminal makes of such bytes, and that it makes of the output of a framebuffer the cells
that it was written for, with their colours. A cell may hold any character but the one that begins a
sequence; digits, brackets and ends of lines are characters like others.

This holds of a framebuffer that calls have drawn on, whatever the sizes in the configuration are. If
some size is too large for a row, the call that asks for it does not return.
-/

namespace MiniA64

namespace Ansi

/-! ## What a terminal reads -/

/-- The colour that a digit stands for. -/
def color? (digit : UInt8) : Option Color :=
  if 48 ≤ digit ∧ digit < 56 then some (Fin.ofNat 8 (digit.toNat - 48)) else none

/--
The rows of cells that bytes show, with the colours that have been set in the current row and its
cells so far. `ESC [ 0 m` and a newline end a row, `ESC [ 3 f ; 4 b m` sets the colours, and every
byte that begins no sequence is a cell. A cell has to come after the first colours of its row, and
nothing may stand behind the end of the last row.
-/
def rowsFrom? (colors : Option (Color × Color)) (row : List Cell) :
    List UInt8 → Option (List (List Cell))
  | [] => if colors = none ∧ row = [] then some [] else none
  | 27 :: 91 :: 48 :: 109 :: 10 :: rest => (rowsFrom? none [] rest).map (row :: ·)
  | 27 :: 91 :: 51 :: f :: 59 :: 52 :: b :: 109 :: rest => do
    let foreground ← color? f
    let background ← color? b
    rowsFrom? (some (foreground, background)) row rest
  | byte :: rest =>
    if byte = 27 then none
    else
      match colors with
      | none => none
      | some (foreground, background) =>
        rowsFrom? colors (row ++ [⟨byte, foreground, background⟩]) rest

def rows? (output : List UInt8) : Option (List (List Cell)) := rowsFrom? none [] output

open Framebuffer

variable {colors : Option (Color × Color)} {row cells : List Cell} {rest : List UInt8}

theorem rowsFrom?_rowEnd :
    rowsFrom? colors row (escape "0" ++ [10] ++ rest) = (rowsFrom? none [] rest).map (row :: ·) :=
  rfl

theorem rowsFrom?_byte {foreground background : Color} {byte : UInt8} (plain : byte ≠ 27) :
    rowsFrom? (some (foreground, background)) row (byte :: rest) =
      rowsFrom? (some (foreground, background)) (row ++ [⟨byte, foreground, background⟩]) rest := by
  rw [rowsFrom?]
  · rw [if_neg plain]
  · rintro _ rfl
    exact absurd rfl plain
  · rintro _ _ _ rfl
    exact absurd rfl plain

/-- A colour is written as one digit. -/
theorem colorSequence_eq (cell : Cell) :
    colorSequence cell = [27, 91, 51, 48 + UInt8.ofNat cell.foreground.val, 59, 52,
      48 + UInt8.ofNat cell.background.val, 109] := by
  have digits : ∀ foreground background : Color,
      escape ("3" ++ toString foreground.val ++ ";4" ++ toString background.val) =
        [27, 91, 51, 48 + UInt8.ofNat foreground.val, 59, 52,
          48 + UInt8.ofNat background.val, 109] := by
    decide +kernel
  exact digits cell.foreground cell.background

theorem color?_digit : ∀ color : Color, color? (48 + UInt8.ofNat color.val) = some color := by
  decide

theorem rowsFrom?_colorSequence (cell : Cell) :
    rowsFrom? colors row (colorSequence cell ++ rest) =
      rowsFrom? (some (cell.foreground, cell.background)) row rest := by
  rw [colorSequence_eq]
  show rowsFrom? colors row (27 :: 91 :: 51 :: _ :: 59 :: 52 :: _ :: 109 :: rest) = _
  rw [rowsFrom?, color?_digit, color?_digit]
  rfl

/-! ## Rows -/

/-- The cells of a row are read as they are, from the colours on that they were written after. -/
theorem exists_rowsFrom?_ansiCells (plain : ∀ cell ∈ cells, cell.char ≠ 27) :
    ∃ last, ∀ rest, rowsFrom? colors row (ansiCells colors cells ++ rest) =
      rowsFrom? last (row ++ cells) rest := by
  induction cells generalizing colors row with
  | nil => exact ⟨colors, fun rest ↦ by rw [List.append_nil]; rfl⟩
  | cons cell cells ih =>
    obtain ⟨first, others⟩ := List.forall_mem_cons.mp plain
    let set := (cell.foreground, cell.background)
    obtain ⟨last, read⟩ := @ih (some set) (row ++ [cell]) others
    refine ⟨last, fun rest ↦ ?_⟩
    have shown : rowsFrom? colors row (ansiCells colors (cell :: cells) ++ rest) =
        rowsFrom? (some set) row (cell.char :: (ansiCells (some set) cells ++ rest)) := by
      rw [ansiCells]
      split
      · rename_i unchanged
        rw [unchanged]
        rfl
      · rw [List.append_assoc, rowsFrom?_colorSequence]
        rfl
    rw [shown, rowsFrom?_byte first, read, List.append_assoc]
    rfl

theorem rowsFrom?_ansiRow (plain : ∀ cell ∈ row, cell.char ≠ 27) :
    rowsFrom? none [] (ansiRow row ++ rest) = (rowsFrom? none [] rest).map (row :: ·) := by
  obtain ⟨last, read⟩ := @exists_rowsFrom?_ansiCells none [] row plain
  rw [ansiRow, List.append_assoc, List.append_assoc, read, List.nil_append,
    ← List.append_assoc, rowsFrom?_rowEnd]

theorem rows?_ansiRows {rows : List (List Cell)}
    (plain : ∀ row ∈ rows, ∀ cell ∈ row, cell.char ≠ 27) :
    rows? (rows.flatMap ansiRow) = some rows := by
  induction rows with
  | nil => rfl
  | cons row rows ih =>
    obtain ⟨first, others⟩ := List.forall_mem_cons.mp plain
    have later : rowsFrom? none [] (rows.flatMap ansiRow) = some rows := ih others
    rw [rows?, List.flatMap_cons, rowsFrom?_ansiRow first, later]
    rfl

end Ansi

/-! ## Framebuffers that calls have drawn on -/

/-- The grid is sound if there is one. Nothing is said about grids that could be made. -/
def Framebuffer.HasSoundGrid (screen : Framebuffer) : Prop :=
  ∀ surface ∈ screen.surface, surface.Sound

namespace Attempt

variable {screen after : Framebuffer}

theorem hasRoom_of_room {size : CanvasSize} (made : room size = .ok ()) : size.HasRoom := by
  intro positive
  unfold room at made
  split at made
  · cases made
  · rename_i fits
    simpa [positive] using fits

theorem soundGrid_activate (sound : screen.HasSoundGrid) (done : activate screen = .ok after) :
    after.HasSoundGrid := by
  intro surface mem
  unfold activate at done
  split at done
  · rename_i active
    cases done
    cases mem
    obtain ⟨surface, drawn⟩ := Option.isSome_iff_exists.mp active
    rw [Framebuffer.activeSurface, drawn]
    exact sound surface drawn
  · rename_i inactive
    obtain ⟨_, made, done⟩ := Selection.bind_eq_ok.mp done
    cases done
    cases mem
    rw [Framebuffer.activeSurface, Option.not_isSome_iff_eq_none.mp inactive]
    exact Surface.sound_blank (hasRoom_of_room made)

theorem soundGrid_setColors {foreground background : Int} (sound : screen.HasSoundGrid)
    (done : setColors foreground background screen = .ok after) : after.HasSoundGrid := by
  obtain ⟨active, activated, done⟩ := Selection.bind_eq_ok.mp done
  cases done
  exact fun surface mem ↦ soundGrid_activate sound activated surface mem

theorem soundGrid_clear (sound : screen.HasSoundGrid) (done : clear screen = .ok after) :
    after.HasSoundGrid := by
  obtain ⟨active, activated, done⟩ := Selection.bind_eq_ok.mp done
  obtain ⟨_, made, done⟩ := Selection.bind_eq_ok.mp done
  cases done
  intro surface mem
  obtain ⟨old, drawn, rfl⟩ := Option.map_eq_some_iff.mp mem
  exact Surface.sound_blank (soundGrid_activate sound activated old drawn).room

theorem soundGrid_setCanvas {width height : Int} (done : setCanvas width height screen = .ok after) :
    after.HasSoundGrid := by
  obtain ⟨_, made, done⟩ := Selection.bind_eq_ok.mp done
  cases done
  intro surface mem
  cases mem
  exact Surface.sound_blank (hasRoom_of_room made)

theorem soundGrid_plot {dot : Dot} (sound : screen.HasSoundGrid)
    (done : plot screen dot = .ok after) : after.HasSoundGrid := by
  unfold plot at done
  split at done
  · obtain ⟨_, -, done⟩ := Selection.bind_eq_ok.mp done
    obtain ⟨_, -, done⟩ := Selection.bind_eq_ok.mp done
    obtain ⟨_, -, done⟩ := Selection.bind_eq_ok.mp done
    obtain ⟨_, -, done⟩ := Selection.bind_eq_ok.mp done
    cases done
    intro surface mem
    obtain ⟨old, drawn, rfl⟩ := Option.map_eq_some_iff.mp mem
    exact (sound old drawn).plot ..
  · cases done
    exact sound

theorem soundGrid_plots {dots : List Dot} (sound : screen.HasSoundGrid)
    (done : dots.foldlM plot screen = .ok after) : after.HasSoundGrid := by
  induction dots generalizing screen with
  | nil =>
    cases done
    exact sound
  | cons dot dots ih =>
    rw [List.foldlM_cons] at done
    obtain ⟨next, plotted, done⟩ := Selection.bind_eq_ok.mp done
    exact ih (soundGrid_plot sound plotted) done

theorem soundGrid_draw {dots : List Dot} (sound : screen.HasSoundGrid)
    (done : draw dots screen = .ok after) : after.HasSoundGrid := by
  obtain ⟨active, activated, done⟩ := Selection.bind_eq_ok.mp done
  exact soundGrid_plots (soundGrid_activate sound activated) done

end Attempt

namespace GraphicCall

variable {κ φ τ : Type} [Terminal κ] [FileStore φ] [Clock τ] {config : Config}

/-- A call that returns leaves a sound grid, in every configuration. -/
theorem soundGrid_of_returns {call : GraphicCall} {before after : World κ φ τ}
    (returned : call.Returns config before after) (sound : before.screen.HasSoundGrid) :
    after.screen.HasSoundGrid := by
  have done := returned 0
  unfold Attempt.dispatch at done
  rw [Service.ofNumber?_id] at done
  obtain ⟨graphic, argument⟩ := call
  cases graphic with
  | clear =>
    obtain ⟨screen, cleared, done⟩ := Selection.bind_eq_ok.mp done
    cases done
    exact Attempt.soundGrid_clear sound cleared
  | setColors =>
    obtain ⟨screen, colored, done⟩ := Selection.bind_eq_ok.mp done
    cases done
    exact Attempt.soundGrid_setColors sound colored
  | plot | line | box =>
    obtain ⟨screen, drawn, done⟩ := Selection.bind_eq_ok.mp done
    cases done
    exact Attempt.soundGrid_draw sound drawn
  | resetColors =>
    cases done
    exact sound
  | canvas =>
    obtain ⟨screen, made, done⟩ := Selection.bind_eq_ok.mp done
    cases done
    exact Attempt.soundGrid_setCanvas made

theorem soundGrid_of_allReturn {calls : List GraphicCall} {before after : World κ φ τ}
    (returned : AllReturn config calls before after) (sound : before.screen.HasSoundGrid) :
    after.screen.HasSoundGrid := by
  induction returned with
  | nil => exact sound
  | cons first rest ih => exact ih (soundGrid_of_returns first sound)

/-- The rows that are read have the cells of a sound grid at their places, and no others. -/
theorem getElem?_rows {screen : Framebuffer} {surface : Surface}
    (drawn : screen.surface = some surface) (sound : surface.Sound) (x y : Nat) :
    ((surface.rows.toList.map Array.toList)[y]?.bind fun row ↦ row[x]?) = screen.cellAt? x y := by
  rw [Framebuffer.cellAt?, drawn, Option.bind_some, Surface.cellAt?, List.getElem?_map,
    Array.getElem?_toList, Int.toNat_natCast, Int.toNat_natCast, Option.bind_map]
  split
  · simp
  · rename_i outside
    simp only [Surface.contains, Bool.and_eq_true, decide_eq_true_eq] at outside
    cases found : surface.rows[y]? with
    | none => rfl
    | some row =>
      obtain ⟨below, rfl⟩ := Array.getElem?_eq_some_iff.mp found
      have rows := sound.rows
      have width := sound.row _ (Array.getElem_mem below)
      have beyond : surface.rows[y].size ≤ x := by omega
      simpa using beyond

/--
Whatever has been called since a framebuffer was new, if it has a grid that does not hold the
character of an escape, its output is read back as rows of cells. There are as many rows and cells
in them as the size says, none if an extent is negative, and at each place stands the cell that is
there, with its character, its foreground and its background.
-/
theorem exists_rows?_ansi {calls : List GraphicCall} {world reached : World κ φ τ}
    (returned : AllReturn config calls
      { world with screen := .new config.defaultCanvas config.maxCanvas } reached)
    (active : reached.screen.isActive = true)
    (plain : ∀ surface ∈ reached.screen.surface, ∀ row ∈ surface.rows, ∀ cell ∈ row,
      cell.char ≠ 27) :
    ∃ rows, Ansi.rows? reached.screen.ansi = some rows ∧
      rows.length = reached.screen.size.height.toNat ∧
      (∀ row ∈ rows, row.length = reached.screen.size.width.toNat) ∧
      ∀ x y : Nat, (rows[y]?.bind fun row ↦ row[x]?) = reached.screen.cellAt? x y := by
  obtain ⟨surface, drawn⟩ := Option.isSome_iff_exists.mp active
  have sound : surface.Sound :=
    soundGrid_of_allReturn returned (fun _ mem ↦ nomatch mem) surface drawn
  have size : reached.screen.size = surface.size := by rw [Framebuffer.size, drawn]
  refine ⟨surface.rows.toList.map Array.toList, ?_, ?_, ?_, getElem?_rows drawn sound⟩
  · have output : reached.screen.ansi =
        (surface.rows.toList.map Array.toList).flatMap Framebuffer.ansiRow := by
      rw [Framebuffer.ansi, drawn, List.flatMap_map]
    rw [output]
    refine Ansi.rows?_ansiRows fun row inGrid cell inRow ↦ ?_
    obtain ⟨array, mem, rfl⟩ := List.mem_map.mp inGrid
    exact plain surface drawn array (Array.mem_toList_iff.mp mem) cell (Array.mem_toList_iff.mp inRow)
  · rw [List.length_map, Array.length_toList, sound.rows, size]
  · intro row inGrid
    obtain ⟨array, mem, rfl⟩ := List.mem_map.mp inGrid
    rw [Array.length_toList, sound.row array (Array.mem_toList_iff.mp mem), size]

/-- A newline in the second of two cells, behind a blank in other colours. -/
theorem exists_rows?_ansi_newline :
    let fresh : World BufferConsole MemoryStore ManualClock :=
      ⟨⟨0, #[], 0⟩, .new ⟨40, 12⟩ ⟨80, 24⟩, 0, ⟨.ofInput [], .empty, .startingAt 0⟩, #[]⟩
    ∃ reached, AllReturn {} [⟨.canvas, fun index ↦ 2 - index⟩,
        ⟨.plot, fun index ↦ [1, 0, 10].getD index 0⟩] fresh reached ∧
      reached.screen.isActive = true ∧
      (∀ surface ∈ reached.screen.surface, ∀ row ∈ surface.rows, ∀ cell ∈ row, cell.char ≠ 27) ∧
      ∃ rows, Ansi.rows? reached.screen.ansi = some rows ∧ rows.length = 1 ∧
        (rows[0]?.bind fun row ↦ row[0]?) = some Cell.blank ∧
        (rows[0]?.bind fun row ↦ row[1]?) = some ⟨10, 7, 0⟩ := by
  intro fresh
  have canvases : Config.HasCanvases {} := ⟨by decide, by decide, by decide⟩
  have start : fresh.screen.Regular {} := Framebuffer.regular_new canvases
  have first := returns_draw {} ⟨.canvas, fun index ↦ 2 - index⟩ start.toSound
  have between := Graphic.regular_draw canvases start (fun index ↦ 2 - index) .canvas
  have second := @returns_draw _ _ _ _ _ _ {} ⟨.plot, fun index ↦ [1, 0, 10].getD index 0⟩
    { fresh.noteCall .canvas with
      screen := Graphic.canvas.draw (fun index ↦ 2 - index) fresh.screen } between.toSound
  obtain ⟨reached, returned, drawn⟩ : ∃ reached : World BufferConsole MemoryStore ManualClock,
      AllReturn {} [⟨.canvas, fun index ↦ 2 - index⟩,
        ⟨.plot, fun index ↦ [1, 0, 10].getD index 0⟩] fresh reached ∧
      reached.screen.surface = some ⟨⟨2, 1⟩, #[#[Cell.blank, ⟨10, 7, 0⟩]]⟩ :=
    ⟨_, .cons first (.cons second (.nil _)), rfl⟩
  have active : reached.screen.isActive = true := congrArg Option.isSome drawn
  have plain : ∀ surface ∈ reached.screen.surface, ∀ row ∈ surface.rows, ∀ cell ∈ row,
      cell.char ≠ 27 := by
    intro surface mem
    rw [drawn] at mem
    cases mem
    decide
  obtain ⟨rows, read, length, -, cells⟩ :=
    @exists_rows?_ansi _ _ _ _ _ _ _ _ fresh _ returned active plain
  refine ⟨reached, returned, active, plain, rows, read, ?_, ?_, ?_⟩
  · rw [length, Framebuffer.size, drawn]
    rfl
  · rw [cells 0 0, Framebuffer.cellAt?, drawn]
    rfl
  · rw [cells 1 0, Framebuffer.cellAt?, drawn]
    rfl

end GraphicCall

end MiniA64
