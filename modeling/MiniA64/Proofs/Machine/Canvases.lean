import MiniA64.Proofs.Machine.Attempts
import MiniA64.Proofs.Machine.ServiceCalls

/-!
# Canvases

The services that draw find a grid of the size that they go by, whatever has been drawn before and
whatever is asked for. A grid that is there has cells in all of its rows, none of which holds the
character zero, and it gets another size by a service for that alone. What a program asks for is
reduced to bytes before it counts, so the one width that can be too much for a row is the default
width of the configuration. Characters and attributes share the cells of one grid.

One call keeps the framebuffer regular, whatever it is, and so any number of calls does.
-/

namespace MiniA64

/-! ## Regular framebuffers -/

/-- Both canvases of a configuration have cells, and rows of the default width can be made. -/
structure Config.HasCanvases (config : Config) : Prop where
  defaultCanvas : 0 < config.defaultCanvas.width ∧ 0 < config.defaultCanvas.height
  maxCanvas : 0 < config.maxCanvas.width ∧ 0 < config.maxCanvas.height
  fits : config.defaultCanvas.width < 2 ^ 63

theorem Config.HasCanvases.hasRoom {config : Config} (canvases : config.HasCanvases) :
    config.HasRoom where
  defaultCanvas _ := by
    have positive := canvases.defaultCanvas.1
    have fits := canvases.fits
    simp only [Escape.isLength, Bool.and_eq_true, decide_eq_true_eq]
    omega
  maxCanvas _ := by
    have positive := canvases.maxCanvas.1
    omega

/-- No canvas is wider or higher than this. -/
def Config.canvasLimit (config : Config) : CanvasSize :=
  ⟨max config.defaultCanvas.width config.maxCanvas.width,
    max config.defaultCanvas.height config.maxCanvas.height⟩

/-- The character is not zero, and the attributes are those of a blank or two colours of eight. -/
structure Cell.Regular (cell : Cell) : Prop where
  char : cell.char ≠ 0
  attributes : cell.attributeByte = 0x70 ∨ ∃ foreground < 8, ∃ background < 8,
    cell.attributeByte = foreground + 16 * background

theorem Cell.regular_blank : Cell.blank.Regular := ⟨by decide, .inl rfl⟩

namespace Surface

/-- A sound grid of regular cells, with rows and columns but no more of them than a bound allows. -/
structure Regular (surface : Surface) (limit : CanvasSize) : Prop extends surface.Sound where
  positive : 0 < surface.size.width ∧ 0 < surface.size.height
  bounded : surface.size.width ≤ limit.width ∧ surface.size.height ≤ limit.height
  cells : ∀ row ∈ surface.rows, ∀ cell ∈ row, cell.Regular

variable {size limit : CanvasSize}

theorem regular_blank (room : size.HasRoom) (positive : 0 < size.width ∧ 0 < size.height)
    (bounded : size.width ≤ limit.width ∧ size.height ≤ limit.height) :
    (blank size).Regular limit where
  toSound := sound_blank room
  positive := positive
  bounded := bounded
  cells row inGrid cell inRow := by
    rw [blank, Array.mem_replicate] at inGrid
    rw [inGrid.2, Array.mem_replicate] at inRow
    exact inRow.2 ▸ Cell.regular_blank

theorem size_plot (surface : Surface) (x y : Int) (cell : Cell) :
    (surface.plot x y cell).size = surface.size := by
  unfold Surface.plot
  split <;> rfl

theorem Regular.plot {surface : Surface} (regular : surface.Regular limit) (x y : Int)
    {cell : Cell} (drawn : cell.Regular) : (surface.plot x y cell).Regular limit where
  toSound := regular.toSound.plot x y cell
  positive := (surface.size_plot x y cell).symm ▸ regular.positive
  bounded := (surface.size_plot x y cell).symm ▸ regular.bounded
  cells := by
    unfold Surface.plot
    split
    · intro row inGrid other inRow
      obtain ⟨index, below, rfl⟩ := Array.mem_iff_getElem.mp inGrid
      rw [Array.getElem_modify] at inRow
      split at inRow
      · obtain old | new := Array.mem_or_eq_of_mem_setIfInBounds inRow
        · exact regular.cells _ (Array.getElem_mem _) other old
        · exact new ▸ drawn
      · exact regular.cells _ (Array.getElem_mem _) other inRow
    · exact regular.cells

end Surface

namespace Framebuffer

/-- A sound framebuffer of a configuration, whose grid is regular if there is one. -/
structure Regular (screen : Framebuffer) (config : Config) : Prop extends screen.Sound where
  defaults : screen.defaultSize = config.defaultCanvas
  bounds : screen.maxSize = config.maxCanvas
  grid : ∀ surface ∈ screen.surface, surface.Regular config.canvasLimit

variable {config : Config}

theorem regular_new (canvases : config.HasCanvases) :
    (new config.defaultCanvas config.maxCanvas).Regular config where
  toSound := sound_new canvases.hasRoom
  defaults := rfl
  bounds := rfl
  grid _ mem := nomatch mem

theorem regular_cellOf (screen : Framebuffer) (char : UInt8) : (screen.cellOf char).Regular where
  char := by
    unfold cellOf
    dsimp only
    split
    · decide
    · assumption
  attributes := .inr ⟨screen.foreground, screen.foreground.isLt, screen.background,
    screen.background.isLt, rfl⟩

/-! ## Drawing -/

variable {screen : Framebuffer}

theorem size_activate (screen : Framebuffer) : screen.activate.size = screen.size := by
  unfold size activate activeSurface
  cases screen.surface <;> rfl

theorem size_clear (screen : Framebuffer) : screen.clear.size = screen.size := by
  unfold size clear
  cases screen.surface <;> rfl

theorem size_plot (screen : Framebuffer) (dot : Dot) : (screen.plot dot).size = screen.size := by
  unfold size plot
  cases screen.surface with
  | none => rfl
  | some surface => exact surface.size_plot ..

theorem size_draw (screen : Framebuffer) (dots : List Dot) :
    (screen.draw dots).size = screen.size := by
  induction dots generalizing screen with
  | nil => rfl
  | cons dot dots ih => exact (ih _).trans (screen.size_plot dot)

theorem isActive_draw (screen : Framebuffer) (dots : List Dot) :
    (screen.draw dots).isActive = screen.isActive := by
  induction dots generalizing screen with
  | nil => rfl
  | cons dot dots ih => exact (ih _).trans (screen.isActive_plot dot)

namespace Regular

theorem activate (regular : screen.Regular config) (canvases : config.HasCanvases) :
    screen.activate.Regular config where
  toSound := regular.toSound.activate
  defaults := regular.defaults
  bounds := regular.bounds
  grid surface mem := by
    cases mem
    unfold activeSurface
    cases drawn : screen.surface with
    | some surface => exact regular.grid surface drawn
    | none =>
      have room := canvases.hasRoom.defaultCanvas
      rw [← regular.defaults] at room
      refine Surface.regular_blank room ?_ ?_
      · exact regular.defaults ▸ canvases.defaultCanvas
      · rw [regular.defaults]
        exact ⟨Int.le_max_left .., Int.le_max_left ..⟩

theorem clear (regular : screen.Regular config) : screen.clear.Regular config where
  toSound := regular.toSound.clear
  defaults := regular.defaults
  bounds := regular.bounds
  grid surface mem := by
    obtain ⟨old, drawn, rfl⟩ := Option.map_eq_some_iff.mp mem
    have kept := regular.grid old drawn
    exact Surface.regular_blank kept.room kept.positive kept.bounded

theorem setColors (regular : screen.Regular config) (foreground background : Int) :
    (screen.setColors foreground background).Regular config where
  toSound := regular.toSound.setColors foreground background
  defaults := regular.defaults
  bounds := regular.bounds
  grid := regular.grid

theorem resetColors (regular : screen.Regular config) : screen.resetColors.Regular config where
  toSound := regular.toSound.resetColors
  defaults := regular.defaults
  bounds := regular.bounds
  grid := regular.grid

/-- A canvas that is asked for is at least one cell wide and high, and no more than its bound. -/
theorem setCanvas (regular : screen.Regular config) (canvases : config.HasCanvases)
    (width height : Int) : (screen.setCanvas width height).Regular config where
  toSound := regular.toSound.setCanvas width height
  defaults := regular.defaults
  bounds := regular.bounds
  grid surface mem := by
    have sound := (regular.toSound.setCanvas width height).surface surface mem
    cases mem
    have positive := canvases.maxCanvas
    refine Surface.regular_blank sound.room ?_ ?_ <;> rw [regular.bounds] <;>
      simp only [extent, Config.canvasLimit] <;> omega

theorem plot (regular : screen.Regular config) (dot : Dot) : (screen.plot dot).Regular config where
  toSound := regular.toSound.plot dot
  defaults := regular.defaults
  bounds := regular.bounds
  grid surface mem := by
    obtain ⟨old, drawn, rfl⟩ := Option.map_eq_some_iff.mp mem
    exact (regular.grid old drawn).plot _ _ (screen.regular_cellOf _)

theorem draw (regular : screen.Regular config) (dots : List Dot) :
    (screen.draw dots).Regular config := by
  induction dots generalizing screen with
  | nil => exact regular
  | cons dot dots ih => exact ih (regular.plot dot)

end Regular

end Framebuffer

/-! ## The services -/

/-- The services that draw or choose what is drawn on and with. -/
inductive Graphic
  | clear
  | setColors
  | plot
  | line
  | box
  | resetColors
  | canvas
  deriving DecidableEq, Repr

namespace Graphic

def service : Graphic → Service
  | clear => .clearScreen
  | setColors => .setColors
  | plot => .plot
  | line => .line
  | box => .box
  | resetColors => .resetColors
  | canvas => .canvas

/-- What the service makes of the framebuffer. -/
def draw (argument : Service.Arguments) (screen : Framebuffer) : Graphic → Framebuffer
  | clear => screen.activate.clear
  | setColors => screen.activate.setColors (argument 0) (argument 1)
  | plot =>
    screen.activate.plot ⟨Service.byteArgument argument 0, Service.byteArgument argument 1,
      Service.byteArgument argument 2⟩
  | line => screen.activate.draw (Service.drawLine argument)
  | box => screen.activate.draw (Service.drawBox argument)
  | resetColors => screen.resetColors
  | canvas => screen.setCanvas (argument 0) (argument 1)

variable {config : Config} {screen : Framebuffer}

theorem regular_draw (canvases : config.HasCanvases) (regular : screen.Regular config)
    (argument : Service.Arguments) (graphic : Graphic) :
    (graphic.draw argument screen).Regular config := by
  have active := regular.activate canvases
  cases graphic with
  | clear => exact active.clear
  | setColors => exact active.setColors ..
  | plot => exact active.plot _
  | line | box => exact active.draw _
  | resetColors => exact regular.resetColors
  | canvas => exact regular.setCanvas canvases ..

theorem isActive_draw_reset (argument : Service.Arguments) (screen : Framebuffer) :
    (resetColors.draw argument screen).isActive = screen.isActive :=
  rfl

/-- A grid that is there stays, and at its size unless a canvas is asked for. -/
theorem size_draw (argument : Service.Arguments) (active : screen.isActive = true)
    {graphic : Graphic} (other : graphic ≠ .canvas) :
    (graphic.draw argument screen).isActive = true ∧
      (graphic.draw argument screen).size = screen.size := by
  have size := screen.size_activate
  cases graphic with
  | clear => exact ⟨rfl, (Framebuffer.size_clear _).trans size⟩
  | setColors => exact ⟨rfl, size⟩
  | plot =>
    exact ⟨Framebuffer.isActive_plot screen.activate _, (Framebuffer.size_plot ..).trans size⟩
  | line | box =>
    exact ⟨Framebuffer.isActive_draw screen.activate _, (Framebuffer.size_draw ..).trans size⟩
  | resetColors => exact ⟨active, rfl⟩
  | canvas => exact absurd rfl other

end Graphic

/-! ## Sequences of calls -/

/-- A call of a service that draws, with what the registers hold for it. -/
structure GraphicCall where
  graphic : Graphic
  argument : Service.Arguments

namespace GraphicCall

variable {κ φ τ : Type} [Terminal κ] [FileStore φ] [Clock τ] {config : Config}

/-- The call comes upon no operation without a result and no fault, and it ends in this world. -/
def Returns (config : Config) (call : GraphicCall) (before after : World κ φ τ) : Prop :=
  ∀ rounds, Attempt.dispatch rounds config call.graphic.service.id.toNat call.argument before =
    .ok (.done none, after)

/-- All of the calls return, one after another. -/
inductive AllReturn (config : Config) : List GraphicCall → World κ φ τ → World κ φ τ → Prop
  | nil (world : World κ φ τ) : AllReturn config [] world world
  | cons {call : GraphicCall} {calls : List GraphicCall} {before between after : World κ φ τ}
      (first : call.Returns config before between) (rest : AllReturn config calls between after) :
    AllReturn config (call :: calls) before after

/-- On a sound framebuffer a call draws, with every partial operation that it takes. -/
theorem returns_draw (config : Config) (call : GraphicCall) {world : World κ φ τ}
    (sound : world.screen.Sound) :
    call.Returns config world { world.noteCall call.graphic.service with
      screen := call.graphic.draw call.argument world.screen } := by
  intro rounds
  unfold Attempt.dispatch
  rw [Service.ofNumber?_id]
  obtain ⟨graphic, argument⟩ := call
  cases graphic with
  | clear => exact Attempt.bind_eq (Attempt.clear_eq sound) _
  | setColors => exact Attempt.bind_eq (Attempt.setColors_eq sound ..) _
  | plot =>
    exact Attempt.bind_eq (Attempt.draw_eq sound
      (List.forall_mem_singleton.mpr (Attempt.char_byteArgument argument 2))) _
  | line => exact Attempt.bind_eq (Attempt.draw_eq sound (Attempt.char_drawLine argument)) _
  | box => exact Attempt.bind_eq (Attempt.draw_eq sound fun _ ↦ Drawing.char_of_mem_box) _
  | resetColors => rfl
  | canvas => exact Attempt.bind_eq (Attempt.setCanvas_eq sound ..) _

/-- Any number of calls returns, and leaves the framebuffer regular. -/
theorem exists_allReturn (canvases : config.HasCanvases) (calls : List GraphicCall)
    {world : World κ φ τ} (regular : world.screen.Regular config) :
    ∃ after, AllReturn config calls world after ∧ after.screen.Regular config := by
  induction calls generalizing world with
  | nil => exact ⟨world, .nil world, regular⟩
  | cons call calls ih =>
    have first := call.returns_draw config regular.toSound
    have drawn := call.graphic.regular_draw canvases regular call.argument
    let between : World κ φ τ := { world.noteCall call.graphic.service with
      screen := call.graphic.draw call.argument world.screen }
    have kept : between.screen.Regular config := drawn
    obtain ⟨after, rest, last⟩ := ih kept
    exact ⟨after, .cons first rest, last⟩

/--
Whatever has been called since a framebuffer was new, and whatever is called next, all calls return
and the framebuffer is regular before and after the last of them. Resetting the colours does not
make a grid. A grid that is there stays, and keeps its size unless a canvas is asked for.
-/
theorem exists_allReturn_next (canvases : config.HasCanvases) (world : World κ φ τ)
    (calls : List GraphicCall) (next : GraphicCall) :
    ∃ before after,
      AllReturn config calls
        { world with screen := .new config.defaultCanvas config.maxCanvas } before ∧
      before.screen.Regular config ∧
      next.Returns config before after ∧
      after.screen.Regular config ∧
      (next.graphic = .resetColors → after.screen.isActive = before.screen.isActive) ∧
      (before.screen.isActive = true → next.graphic ≠ .canvas →
        after.screen.isActive = true ∧ after.screen.size = before.screen.size) := by
  let fresh : World κ φ τ :=
    { world with screen := .new config.defaultCanvas config.maxCanvas }
  have start : fresh.screen.Regular config := Framebuffer.regular_new canvases
  obtain ⟨before, returned, regular⟩ := exists_allReturn canvases calls start
  refine ⟨before, _, returned, regular, next.returns_draw config regular.toSound,
    next.graphic.regular_draw canvases regular next.argument, fun reset ↦ ?_,
    fun active other ↦ Graphic.size_draw next.argument active other⟩
  dsimp only
  rw [reset, Graphic.isActive_draw_reset]

/-- A dot after a canvas of three columns and two rows. -/
theorem exists_allReturn_next_plot :
    let fresh : World BufferConsole MemoryStore ManualClock :=
      ⟨⟨0, #[], 0⟩, .new ⟨40, 12⟩ ⟨80, 24⟩, 0, ⟨.ofInput [], .empty, .startingAt 0⟩, #[]⟩
    Config.HasCanvases {} ∧ ∃ before after,
      AllReturn {} [⟨.canvas, fun index ↦ 3 - index⟩] fresh before ∧
      before.screen.isActive = true ∧
      Returns {} ⟨.plot, fun _ ↦ 1⟩ before after ∧
      after.screen.Regular {} ∧ after.screen.isActive = true ∧ after.screen.size = ⟨3, 2⟩ := by
  intro fresh
  have canvases : Config.HasCanvases {} := ⟨by decide, by decide, by decide⟩
  obtain ⟨before, after, returned, -, next, regular, -, kept⟩ :=
    exists_allReturn_next canvases fresh [⟨.canvas, fun index ↦ 3 - index⟩] ⟨.plot, fun _ ↦ 1⟩
  have canvas : before.screen = (Framebuffer.new ⟨40, 12⟩ ⟨80, 24⟩).setCanvas 3 2 := by
    cases returned with
    | cons first rest =>
      cases rest
      cases first 0
      rfl
  have active : before.screen.isActive = true := congrArg Framebuffer.isActive canvas
  obtain ⟨stays, size⟩ := kept active (by decide)
  exact ⟨canvases, before, after, returned, active, next, regular, stays,
    size.trans (congrArg Framebuffer.size canvas)⟩

/-- The first drawing makes rows of the default width, and none can be made of one that is too
large for the length of a row, although both canvases have cells. -/
theorem clear_escapes :
    let config : Config := { defaultCanvas := ⟨2 ^ 63, 1⟩ }
    let fresh : World BufferConsole MemoryStore ManualClock :=
      ⟨⟨0, #[], 0⟩, .new config.defaultCanvas config.maxCanvas, 0,
        ⟨.ofInput [], .empty, .startingAt 0⟩, #[]⟩
    (0 < config.defaultCanvas.width ∧ 0 < config.defaultCanvas.height) ∧
      (0 < config.maxCanvas.width ∧ 0 < config.maxCanvas.height) ∧
      ∀ rounds, Attempt.dispatch rounds config Graphic.clear.service.id.toNat (fun _ ↦ 0) fresh =
        .error .length :=
  ⟨by decide, by decide, fun _ ↦ rfl⟩

end GraphicCall

end MiniA64
