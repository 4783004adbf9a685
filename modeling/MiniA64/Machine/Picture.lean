import MiniA64.Machine.Framebuffer

/-!
# Pictures

A picture of a framebuffer shows each cell as a block of pixels in its background colour. It is
kept as runs of equal rows, which are runs of equal pixels, so that its cost does not depend on
the size of the blocks. Joining neighbouring runs changes no pixel. Without cells all is black.

The characters on the blocks take a font. A renderer that has one draws the whole framebuffer on a
black image, stroke after stroke, and encodes the image.
-/

namespace MiniA64

/-- Something to draw on an image, in pixels and in parts of red, green and blue. -/
inductive Stroke
  | rectangle (left top right bottom : Int) (fill : Nat × Nat × Nat)
  | text (left top : Int) (char : UInt8) (fill : Nat × Nat × Nat)
  deriving DecidableEq, Repr

/-- Why an image cannot be drawn or encoded. -/
structure RenderError where
  /-- Whether a size or a coordinate is to blame. -/
  badValue : Bool
  message : String
  deriving Repr

/-- Draws strokes on an image of a size in pixels, and encodes it. -/
abbrev Renderer := CanvasSize → List Stroke → Except RenderError (List UInt8)

/-- The block of a cell, and its character unless that is a blank. -/
def Cell.strokes (size : CanvasSize) (left top : Int) (cell : Cell) : List Stroke :=
  .rectangle left top (left + size.width - 1) (top + size.height - 1) cell.background.rgb ::
    if cell.char = 32 then []
    else [.text (left + 1) (top + 1) cell.char cell.foreground.rgb]

namespace Surface

/-- The strokes of all cells, row by row. -/
def strokes (size : CanvasSize) (surface : Surface) : List Stroke :=
  surface.rows.toList.zipIdx.flatMap fun (row, y) ↦
    row.toList.zipIdx.flatMap fun (cell, x) ↦
      cell.strokes size (x * size.width) (y * size.height)

/-- A grid with cells of a given size, as a renderer draws it. -/
def render (renderer : Renderer) (size : CanvasSize) (surface : Surface) :
    Except RenderError (List UInt8) :=
  renderer ⟨surface.size.width * size.width, surface.size.height * size.height⟩
    (surface.strokes size)

end Surface

/-- The image of a framebuffer in use, if there is a renderer. -/
def Framebuffer.render? (renderer : Option Renderer) (size : CanvasSize) (screen : Framebuffer) :
    Option (Except RenderError (List UInt8)) := do
  return (← screen.surface).render (← renderer) size

structure Run (α : Type) where
  count : Nat
  value : α
  deriving DecidableEq, Repr

namespace Run

variable {α : Type}

def expand (runs : List (Run α)) : List α :=
  runs.flatMap fun run ↦ List.replicate run.count run.value

@[simp] theorem expand_cons (run : Run α) (runs : List (Run α)) :
    expand (run :: runs) = List.replicate run.count run.value ++ expand runs := by
  simp [expand]

/-- Joins neighbouring runs of the same value. -/
def join [DecidableEq α] : List (Run α) → List (Run α)
  | [] => []
  | run :: rest =>
    match join rest with
    | [] => [run]
    | next :: runs =>
      if run.value = next.value then ⟨run.count + next.count, next.value⟩ :: runs
      else run :: next :: runs

theorem expand_join [DecidableEq α] (runs : List (Run α)) : expand (join runs) = expand runs := by
  induction runs with
  | nil => rfl
  | cons run rest ih =>
    rw [expand_cons, ← ih, join]
    split
    · next h => rw [h, expand_cons]
    · next next runs h =>
      rw [h]
      split
      · next same =>
        rw [expand_cons, expand_cons, same, ← List.append_assoc,
          List.replicate_append_replicate]
      · rw [expand_cons]

end Run

/-- Why a framebuffer and a size of blocks make no picture. -/
inductive PictureError
  | negative
  | noWidth
  | noHeight
  | empty
  deriving DecidableEq, Repr

def PictureError.message : PictureError → String
  | negative => "Width and height must be >= 0"
  | noWidth => "x1 must be greater than or equal to x0"
  | noHeight => "y1 must be greater than or equal to y0"
  | empty => "tile cannot extend outside image"

structure Picture where
  width : Nat
  height : Nat
  rows : List (Run (List (Run Color)))
  deriving DecidableEq, Repr

namespace Picture

/-- A row of cells as pixels, each cell some pixels wide. -/
def pixels (width : Nat) (cells : List Cell) : List (Run Color) :=
  Run.join (cells.map fun cell ↦ ⟨width, cell.background⟩)

/-- The picture of a grid with cells of a given size. -/
def ofSurface (surface : Surface) (cell : CanvasSize) : Except PictureError Picture :=
  let width := surface.size.width * cell.width
  let height := surface.size.height * cell.height
  let hasCells := 0 < surface.size.width && 0 < surface.size.height
  if width < 0 ∨ height < 0 then .error .negative
  else if hasCells && cell.width ≤ 0 then .error .noWidth
  else if hasCells && cell.height ≤ 0 then .error .noHeight
  else if width = 0 ∨ height = 0 then .error .empty
  else
    let rows := surface.rows.toList.map fun row ↦
      ⟨cell.height.toNat, pixels cell.width.toNat row.toList⟩
    .ok
      { width := width.toNat
        height := height.toNat
        rows :=
          if hasCells then Run.join rows
          else [⟨height.toNat, [⟨width.toNat, Color.black⟩]⟩] }

end Picture

end MiniA64
