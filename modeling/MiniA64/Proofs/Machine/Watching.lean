import MiniA64.Proofs.Machine.Reachability
import MiniA64.Proofs.Machine.Views

/-!
# Watched devices

A watched device keeps a record of the errors of its failed operations. Watching changes nothing
that a program does: forgetting the records of a step of a watched machine gives the step of the
machine. The records tell what became of each failure: an error of the console is the cause of a
fault, and after an error of the file store a service is done with the value zero.
-/

namespace MiniA64

/-- A device and the errors of its failed operations, the last one first. -/
structure Watched (σ : Type) where
  device : σ
  failures : List DeviceError

namespace Watched

variable {σ α : Type}

def record (answer : Except DeviceError α) (failures : List DeviceError) : List DeviceError :=
  match answer with
  | .ok _ => failures
  | .error error => error :: failures

/-- Carries out an operation on the device and records its error. -/
def call (operation : σ → Reply σ α) (watched : Watched σ) : Reply (Watched σ) α :=
  let reply := operation watched.device
  (reply.1, ⟨reply.2, record reply.1 watched.failures⟩)

instance [Console σ] : Console (Watched σ) where
  write data := call (Console.write data)
  readByte := call Console.readByte
  remaining watched := Console.remaining watched.device
  remaining_write data watched := Console.remaining_write data watched.device
  remaining_readByte watched := Console.remaining_readByte watched.device

instance [FileStore σ] : FileStore (Watched σ) where
  create name := call (FileStore.create name)
  write name data := call (FileStore.write name data)
  read name := call (FileStore.read name)
  delete name := call (FileStore.delete name)
  contains name := call (FileStore.contains name)

/-- An operation whose answer is changed afterwards records the same. -/
theorem map_call {β : Type} (operation : σ → Reply σ α) (change : α → β) (watched : Watched σ) :
    ((call operation watched).1.map change, (call operation watched).2) =
      call (fun device ↦ ((operation device).1.map change, (operation device).2)) watched := by
  unfold call
  dsimp only
  cases (operation watched.device).1 <;> rfl

theorem shows_console (κ : Type) [Console κ] : ShowsConsole (device : Watched κ → κ) :=
  ⟨fun _ _ ↦ rfl, fun _ ↦ rfl⟩

theorem shows_files (φ : Type) [FileStore φ] : ShowsFiles (device : Watched φ → φ) :=
  ⟨fun _ _ ↦ rfl, fun _ _ _ ↦ rfl, fun _ _ ↦ rfl, fun _ _ ↦ rfl, fun _ _ ↦ rfl⟩

/-- A watched device shows the device. -/
def view (κ φ τ : Type) [Console κ] [FileStore φ] [Clock τ] :
    View (Watched κ) κ (Watched φ) φ τ τ where
  console := device
  files := device
  clock := id
  log := id
  shows_console := shows_console κ
  shows_files := shows_files φ
  shows_clock := .same
  shows_log := .same

end Watched

variable {κ φ τ : Type}

/-- The world without the records of its devices. -/
def World.forget (world : World (Watched κ) (Watched φ) τ) : World κ φ τ :=
  { world with host := ⟨world.host.console.device, world.host.files.device, world.host.clock⟩ }

/-! ## File operations -/

namespace Service

theorem askFiles_watched (name : String) (question : φ → Reply φ Bool) (files : Watched φ) :
    (if name.isEmpty then ((.ok 0, files) : Reply (Watched φ) Int)
      else
        let reply := Watched.call question files
        (reply.1.map fun yes ↦ if yes then 1 else 0, reply.2)) =
      Watched.call (fun files ↦
        if name.isEmpty then (.ok 0, files)
        else
          let reply := question files
          (reply.1.map fun yes ↦ if yes then 1 else 0, reply.2)) files := by
  cases name.isEmpty with
  | true => rfl
  | false => exact Watched.map_call question (fun yes ↦ if yes then 1 else 0) files

theorem fileWriteFrom_watched [FileStore φ] (name : String) (data : Option (List UInt8))
    (length : Int) (files : Watched φ) :
    fileWriteFrom name data length files = Watched.call (fileWriteFrom name data length) files := by
  cases data with
  | none => rfl
  | some data =>
    have write : fileWriteFrom name (some data) length = fun files : φ ↦
        if name.isEmpty then (.ok 0, files)
        else
          ((FileStore.write name data files).1.map fun _ ↦ length,
            (FileStore.write name data files).2) := rfl
    rw [write]
    unfold fileWriteFrom
    dsimp only
    cases name.isEmpty with
    | true => rfl
    | false => exact Watched.map_call (FileStore.write name data) (fun _ ↦ length) files

theorem transferFile_watched [FileStore φ] (removeSource : Bool) (source target : String)
    (files : Watched φ) : transferFile removeSource source target files =
      Watched.call (transferFile removeSource source target) files := by
  have read : FileStore.read source files = Watched.call (FileStore.read source) files := rfl
  have create (files : Watched φ) :
      FileStore.create target files = Watched.call (FileStore.create target) files := rfl
  have write (data : List UInt8) (files : Watched φ) :
      FileStore.write target data files = Watched.call (FileStore.write target data) files := rfl
  have delete (files : Watched φ) :
      FileStore.delete source files = Watched.call (FileStore.delete source) files := rfl
  simp only [transferFile, read, create, write, delete, Watched.call]
  split
  · rfl
  obtain ⟨_ | _ | data, device⟩ := FileStore.read source files.device
  · rfl
  · rfl
  dsimp only
  obtain ⟨_ | _ | _, device⟩ := FileStore.create target device
  · rfl
  · rfl
  dsimp only
  obtain ⟨_ | _, device⟩ := FileStore.write target data device
  · rfl
  dsimp only
  split
  · obtain ⟨_ | _, device⟩ := FileStore.delete source device <;> rfl
  · rfl

end Service

/-! ## Machines -/

namespace Machine

/-- The machine without the records of its devices. -/
def forget (machine : Machine (Watched κ) (Watched φ) τ) : Machine κ φ τ :=
  ⟨machine.config, machine.world.forget, machine.registers, machine.status, machine.executed,
    machine.depth⟩

/-- The machine with devices that are watched from now on. -/
def watched (machine : Machine κ φ τ) : Machine (Watched κ) (Watched φ) τ :=
  let host := machine.world.host
  ⟨machine.config,
    { machine.world with host := ⟨⟨host.console, []⟩, ⟨host.files, []⟩, host.clock⟩ },
    machine.registers, machine.status, machine.executed, machine.depth⟩

/-- Watching the devices changes nothing that a step does. -/
theorem forget_step [Console κ] [FileStore φ] [Clock τ]
    (machine : Machine (Watched κ) (Watched φ) τ) :
    machine.forget.step = (machine.step.1, machine.step.2.forget) :=
  machine.step_seen (Watched.view κ φ τ)

end Machine

end MiniA64
