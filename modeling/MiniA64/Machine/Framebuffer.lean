import MiniA64.Numeral
import MiniA64.Text.Characters

/-!
# The character framebuffer

A grid of character cells, each with a foreground and a background colour out of eight. The
grid appears with the first drawing or with an explicit size, cleared to blanks on white.
Drawing outside the grid does nothing. The grid can be shown as plain text and as terminal output
with colour sequences.
-/

namespace MiniA64

/-- Black, red, green, yellow, blue, magenta, cyan and white. -/
abbrev Color := Fin 8

namespace Color

def ofInt (value : Int) : Color := Fin.ofNat 8 (value % 8).toNat

def black : Color := 0

def white : Color := 7

/-- Red, green and blue parts of a pixel in this colour. -/
def rgb : Color → Nat × Nat × Nat
  | 0 => (0, 0, 0)
  | 1 => (205, 49, 49)
  | 2 => (13, 188, 121)
  | 3 => (229, 229, 16)
  | 4 => (36, 114, 200)
  | 5 => (188, 63, 188)
  | 6 => (17, 168, 205)
  | 7 => (229, 229, 229)

end Color

structure Cell where
  char : UInt8
  foreground : Color
  background : Color
  deriving DecidableEq, Repr, Inhabited

namespace Cell

def blank : Cell := ⟨32, Color.black, Color.white⟩

/-- Foreground in the low half and background in the high half of one byte. -/
def attributeByte (cell : Cell) : Nat := cell.foreground.val + 16 * cell.background.val

end Cell

structure CanvasSize where
  width : Int
  height : Int
  deriving DecidableEq, Repr

/-- A visible grid, row by row. -/
structure Surface where
  size : CanvasSize
  rows : Array (Array Cell)
  deriving DecidableEq

namespace Surface

def blank (size : CanvasSize) : Surface :=
  ⟨size, Array.replicate size.height.toNat (Array.replicate size.width.toNat Cell.blank)⟩

def contains (surface : Surface) (x y : Int) : Bool :=
  0 ≤ x && x < surface.size.width && 0 ≤ y && y < surface.size.height

def plot (surface : Surface) (x y : Int) (cell : Cell) : Surface :=
  if surface.contains x y then
    { surface with
      rows := surface.rows.modify y.toNat fun row ↦ row.setIfInBounds x.toNat cell }
  else surface

def cellAt? (surface : Surface) (x y : Int) : Option Cell :=
  if surface.contains x y then
    (surface.rows[y.toNat]?).bind fun row ↦ row[x.toNat]?
  else none

end Surface

/-- One cell to draw. -/
structure Dot where
  x : Int
  y : Int
  char : Int
  deriving DecidableEq, Repr

namespace Drawing

/-- The integers from a first one up to but excluding a last one. -/
def interval (first stop : Int) : List Int :=
  (List.range (stop - first).toNat).map fun (i : Nat) ↦ first + (i : Int)

/-- A horizontal or vertical run; any other line has no cells. -/
def line (x1 y1 x2 y2 char : Int) : List Dot :=
  if y1 = y2 then (interval (min x1 x2) (max x1 x2 + 1)).map fun x ↦ ⟨x, y1, char⟩
  else if x1 = x2 then (interval (min y1 y2) (max y1 y2 + 1)).map fun y ↦ ⟨x1, y, char⟩
  else []

/-- One row of a box: its two ends and what lies between them. -/
def boxRow (x width y : Int) (ends middle : Char) : List Dot :=
  ⟨x, y, ends.toNat⟩ :: (interval 1 (width - 1)).map (fun i ↦ ⟨x + i, y, middle.toNat⟩) ++
    [⟨x + width - 1, y, ends.toNat⟩]

/-- Corners, edges and a blanked interior. -/
def box (x y width height : Int) : List Dot :=
  boxRow x width y '+' '-' ++
    (interval 1 (height - 1)).flatMap (fun j ↦ boxRow x width (y + j) '|' ' ') ++
    boxRow x width (y + height - 1) '+' '-'

end Drawing

inductive DrawError
  | noSurface
  | charOutOfRange
  deriving DecidableEq, Repr

def DrawError.message : DrawError → String
  | noSurface => "list index out of range"
  | charOutOfRange => "byte must be in range(0, 256)"

structure Framebuffer where
  defaultSize : CanvasSize
  maxSize : CanvasSize
  foreground : Color
  background : Color
  surface : Option Surface
  /-- Cleared before there was a grid. Drawing is then accepted, and lost. -/
  primed : Bool
  deriving DecidableEq

namespace Framebuffer

def new (defaultSize maxSize : CanvasSize) : Framebuffer :=
  { defaultSize
    maxSize
    foreground := Color.white
    background := Color.black
    surface := none
    primed := false }

def isActive (screen : Framebuffer) : Bool := screen.surface.isSome

def size (screen : Framebuffer) : CanvasSize :=
  match screen.surface with
  | some surface => surface.size
  | none => screen.defaultSize

/-- The visible grid, or a blank one at the default size. -/
def activeSurface (screen : Framebuffer) : Surface :=
  screen.surface.getD (Surface.blank screen.defaultSize)

def activate (screen : Framebuffer) : Framebuffer :=
  { screen with surface := some screen.activeSurface }

def clear (screen : Framebuffer) : Framebuffer :=
  { screen with
    surface := screen.surface.map fun surface ↦ Surface.blank surface.size
    primed := true }

def setColors (foreground background : Int) (screen : Framebuffer) : Framebuffer :=
  { screen with foreground := Color.ofInt foreground, background := Color.ofInt background }

def resetColors (screen : Framebuffer) : Framebuffer :=
  { screen with foreground := Color.white, background := Color.black }

/-- A requested extent: one byte, where zero stands for a default, up to a maximum. -/
def extent (requested default maximum : Int) : Int :=
  let byte := requested % 256
  min (if byte < 1 then default else byte) maximum

def setCanvas (width height : Int) (screen : Framebuffer) : Framebuffer :=
  let size : CanvasSize :=
    ⟨extent width 40 screen.maxSize.width, extent height 10 screen.maxSize.height⟩
  { screen with surface := some (Surface.blank size) }

/-- A cell in the current colours; character zero is drawn as a blank. -/
def cellOf (screen : Framebuffer) (char : UInt8) : Cell :=
  ⟨if char = 0 then 32 else char, screen.foreground, screen.background⟩

def isInside (screen : Framebuffer) (dot : Dot) : Bool :=
  0 ≤ dot.x && dot.x < screen.size.width && 0 ≤ dot.y && dot.y < screen.size.height

/-- Draws a dot whose character is reduced to a byte, if there is a grid and the dot is on it. -/
def plot (screen : Framebuffer) (dot : Dot) : Framebuffer :=
  { screen with
    surface := screen.surface.map fun surface ↦
      surface.plot dot.x dot.y (screen.cellOf (UInt8.ofNat (dot.char % 256).toNat)) }

def draw (dots : List Dot) (screen : Framebuffer) : Framebuffer := dots.foldl plot screen

/-- Draws a dot, refusing one inside the area when there is no grid or no such character. -/
def plot? (screen : Framebuffer) (dot : Dot) : Except DrawError Framebuffer :=
  if !screen.isInside dot then .ok screen
  else if !screen.isActive && !screen.primed then .error .noSurface
  else if dot.char < 0 ∨ 255 < dot.char then .error .charOutOfRange
  else .ok (screen.plot dot)

def draw? (dots : List Dot) (screen : Framebuffer) : Except DrawError Framebuffer :=
  dots.foldlM plot? screen

def cellAt? (screen : Framebuffer) (x y : Int) : Option Cell :=
  screen.surface.bind fun surface ↦ surface.cellAt? x y

/-- The message for a position that has no cell. -/
def invalidPosition (x y : Int) : String :=
  "Invalid position (" ++ toString x ++ ", " ++ toString y ++ ")"

def text (screen : Framebuffer) : String :=
  match screen.surface with
  | none => ""
  | some surface =>
    "\n".intercalate
      (surface.rows.toList.map fun row ↦ Text.ofBytes (row.toList.map Cell.char))

def escape (body : String) : List UInt8 := 27 :: Text.toBytes ("[" ++ body ++ "m")

def colorSequence (cell : Cell) : List UInt8 :=
  escape ("3" ++ toString cell.foreground.val ++ ";4" ++ toString cell.background.val)

/-- The cells of a row, with a colour sequence wherever the colours change. -/
def ansiCells (last : Option (Color × Color)) : List Cell → List UInt8
  | [] => []
  | cell :: rest =>
    let colors := (cell.foreground, cell.background)
    (if last = some colors then [] else colorSequence cell) ++
      cell.char :: ansiCells (some colors) rest

def ansiRow (row : List Cell) : List UInt8 := ansiCells none row ++ escape "0" ++ [10]

def ansi (screen : Framebuffer) : List UInt8 :=
  match screen.surface with
  | none => []
  | some surface => surface.rows.toList.flatMap fun row ↦ ansiRow row.toList

end Framebuffer

end MiniA64
