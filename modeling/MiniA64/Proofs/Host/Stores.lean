import Mathlib.Data.List.Forall2
import MiniA64.Host.Directory
import MiniA64.Host.Memory
import MiniA64.Proofs.Host.Paths

/-!
# A directory as a file store

A store in a directory that was empty at first answers every call as a store in memory does, and
holds the same files after each. The names of the calls are those that the file system takes for
files in the directory: names without a slash, neither of the two that stand for directories, and
within its limits.

One call keeps the two stores in step, whatever it is, and so any number of calls does.
-/

namespace MiniA64

/-! ## Calls -/

/-- A call on a store of files. -/
inductive StoreCall
  | create (name : String)
  | write (name : String) (data : List UInt8)
  | read (name : String)
  | delete (name : String)
  | contains (name : String)
  deriving DecidableEq, Repr

inductive StoreAnswer
  | done
  | whether (yes : Bool)
  | content (data : Option (List UInt8))
  deriving DecidableEq, Repr

namespace StoreCall

def name : StoreCall → String
  | create name | write name _ | read name | delete name | contains name => name

variable {φ : Type} [FileStore φ]

def perform (call : StoreCall) (store : φ) : Reply φ StoreAnswer :=
  match call with
  | create name => ((FileStore.create name store).1.map .whether, (FileStore.create name store).2)
  | write name data =>
    ((FileStore.write name data store).1.map fun _ ↦ .done, (FileStore.write name data store).2)
  | read name => ((FileStore.read name store).1.map .content, (FileStore.read name store).2)
  | delete name => ((FileStore.delete name store).1.map .whether, (FileStore.delete name store).2)
  | contains name =>
    ((FileStore.contains name store).1.map .whether, (FileStore.contains name store).2)

/-- The replies to calls one after another, each with the store after it. -/
def replies : List StoreCall → φ → List (Reply φ StoreAnswer)
  | [], _ => []
  | call :: calls, store => call.perform store :: replies calls (call.perform store).2

end StoreCall

/-! ## The store in memory -/

namespace MemoryStore

variable (store : MemoryStore) (name other : String)

theorem contains_eq : store.contains name = (store.read name).isSome :=
  (isSome_lookup store.files name).symm

theorem read_write (data : List UInt8) :
    (store.write name data).read other = if other = name then some data else store.read other := by
  have files : (store.write name data).files =
      if store.files.any fun file ↦ file.1 = name then
        store.files.map fun file ↦ if file.1 = name then (name, data) else file
      else store.files ++ [(name, data)] := by
    unfold write contains
    split <;> rfl
  unfold read
  rw [files, lookup_put]

theorem read_delete :
    (store.delete name).2.read other = if other = name then none else store.read other :=
  lookup_removed store.files name other

/-- What lies below a directory in which the files of the store are. -/
def entryBelow : List String → Option TreeEntry
  | [name] => (store.read name).map .file
  | _ => none

theorem entryBelow_write (data : List UInt8) (path : List String) :
    (store.write name data).entryBelow path =
      if path = [name] then some (.file data) else store.entryBelow path := by
  match path with
  | [] => rfl
  | [other] =>
    rw [entryBelow, read_write, entryBelow]
    simp only [List.cons.injEq, and_true]
    split <;> rfl
  | _ :: _ :: _ => rw [if_neg (by simp), entryBelow, entryBelow] <;> simp

theorem entryBelow_delete (path : List String) :
    (store.delete name).2.entryBelow path =
      if path = [name] then none else store.entryBelow path := by
  match path with
  | [] => rfl
  | [other] =>
    rw [entryBelow, read_delete, entryBelow]
    simp only [List.cons.injEq, and_true]
    split <;> rfl
  | _ :: _ :: _ => rw [if_neg (by simp), entryBelow, entryBelow] <;> simp

end MemoryStore

/-! ## The store in a directory -/

/-- A name that the file system takes for that of a file in a directory. -/
structure IsFileName (name : String) : Prop where
  nonempty : name ≠ ""
  noSlash : '/' ∉ name.toList
  noNull : '\x00' ∉ name.toList
  notHere : name ≠ "."
  notAbove : name ≠ ".."

/-- The file system limits the length of a name and that of a path from the top. -/
structure FitsLimits (root : List String) (name : String) : Prop where
  shortName : name.utf8ByteSize ≤ FileTree.nameLimit
  shortPath : FileTree.writtenLength [] (root ++ [name]) ≤ FileTree.pathLimit

namespace DirectoryStore

variable {root : List String} {name : String}

theorem resolve?_eq (plain : IsFileName name) : resolve? root name = some (root ++ [name]) := by
  have relative : name.startsWith "/" = false := by
    rw [Bool.eq_false_iff]
    intro starts
    exact plain.noSlash ((String.startsWith_string_iff.mp starts).subset (by simp))
  have names : FileTree.namesOf name = [name] := by
    rw [FileTree.namesOf, List.splitOn_eq_singleton plain.noSlash]
    simp [plain.nonempty, plain.notHere]
  have place : FileTree.resolve root [name] = root ++ [name] := by
    simp [FileTree.resolve, plain.notAbove]
  have below : root.isPrefixOf (root ++ [name]) = true := by simp
  unfold resolve?
  dsimp only
  rw [relative, if_neg Bool.false_ne_true, names, place, below, Bool.true_and,
    if_pos (by simp)]

variable {directory : DirectoryStore} {memory : MemoryStore}

/-- Below the directory are the files of a store in memory, and nothing else. -/
def Mirrors (directory : DirectoryStore) (memory : MemoryStore) : Prop :=
  ∀ path ≠ [], directory.tree.entry? (directory.root ++ path) = memory.entryBelow path

/-- The directory is in its place, and has the files of a store in memory. -/
structure InStep (directory : DirectoryStore) (memory : MemoryStore) : Prop where
  resolved : ".." ∉ directory.root
  stands : directory.tree.follow [] directory.root = .ok (directory.root, some .directory)
  mirrors : directory.Mirrors memory

theorem onPath_eq {α : Type} (plain : IsFileName name)
    (operation : List String → Except FileError α) {answer : α}
    (answers : operation (directory.root ++ [name]) = .ok answer) :
    directory.onPath name operation = .ok answer := by
  have noNull : name.toList.contains '\x00' = false := by simpa using plain.noNull
  rw [onPath, noNull, if_neg Bool.false_ne_true, resolve?_eq plain]
  dsimp only
  rw [answers]
  rfl

namespace InStep

/-- The place of a file is below the directory, with what the store in memory has there. -/
theorem locate_eq (inStep : directory.InStep memory) (plain : IsFileName name)
    (fits : FitsLimits directory.root name) :
    directory.tree.locate [] (directory.root ++ [name]) =
      .ok (directory.root ++ [name], (memory.read name).map .file) := by
  have mirrored := inStep.mirrors [name] (by simp)
  rw [FileTree.locate, if_neg (Nat.not_lt.mpr fits.shortPath),
    FileTree.follow_append inStep.stands, FileTree.follow_name plain.notAbove fits.shortName,
    mirrored, MemoryStore.entryBelow]

theorem file?_eq (inStep : directory.InStep memory) (plain : IsFileName name)
    (fits : FitsLimits directory.root name) :
    directory.tree.file? [] (directory.root ++ [name]) =
      .ok ((memory.read name).map fun data ↦ (directory.root ++ [name], data)) := by
  rw [FileTree.file?, inStep.locate_eq plain fits]
  cases memory.read name <;> rfl

/-- A change of the files in the directory leaves it in its place. -/
theorem change {tree : FileTree} {changed : MemoryStore} (inStep : directory.InStep memory)
    (above : ∀ path, path <+: directory.root → tree.entry? path = directory.tree.entry? path)
    (mirrors : ({ directory with tree } : DirectoryStore).Mirrors changed) :
    ({ directory with tree } : DirectoryStore).InStep changed where
  resolved := inStep.resolved
  stands := by
    rw [← inStep.stands]
    exact FileTree.follow_congr inStep.resolved above
  mirrors := mirrors

/-- A file is not on the way to its directory. -/
theorem ne_of_above {path : List String} (begins : path <+: directory.root) :
    path ≠ directory.root ++ [name] := by
  rintro rfl
  have length := begins.length_le
  simp only [List.length_append, List.length_singleton] at length
  omega

theorem write (inStep : directory.InStep memory) (name : String) (data : List UInt8) :
    ({ directory with tree := directory.tree.put (directory.root ++ [name]) (.file data) } :
      DirectoryStore).InStep (memory.write name data) := by
  have inside : directory.root ++ [name] ≠ [] := by simp
  refine inStep.change (fun path begins ↦ ?_) fun path below ↦ ?_
  · rw [FileTree.entry?_put inside, if_neg (ne_of_above begins)]
  · rw [FileTree.entry?_put inside, inStep.mirrors path below, MemoryStore.entryBelow_write]
    simp only [List.append_cancel_left_eq]

theorem delete (inStep : directory.InStep memory) (name : String) :
    ({ directory with tree := directory.tree.remove (directory.root ++ [name]) } :
      DirectoryStore).InStep (memory.delete name).2 := by
  have inside : directory.root ++ [name] ≠ [] := by simp
  refine inStep.change (fun path begins ↦ ?_) fun path below ↦ ?_
  · rw [FileTree.entry?_remove inside, if_neg (ne_of_above begins)]
  · rw [FileTree.entry?_remove inside, inStep.mirrors path below, MemoryStore.entryBelow_delete]
    simp only [List.append_cancel_left_eq]

/-- Deleting a file that does not exist changes nothing. -/
theorem delete_absent (inStep : directory.InStep memory) (absent : memory.read name = none) :
    directory.InStep (memory.delete name).2 where
  resolved := inStep.resolved
  stands := inStep.stands
  mirrors path below := by
    rw [inStep.mirrors path below, MemoryStore.entryBelow_delete]
    split
    · rename_i same
      rw [same, MemoryStore.entryBelow, absent, Option.map_none]
    · rfl

end InStep

/-! ## Calls on both stores -/

/-- Replies that give the same answer and leave the two stores in step. -/
structure Agrees {α : Type} (root : List String) (ofDirectory : Reply DirectoryStore α)
    (ofMemory : Reply MemoryStore α) : Prop where
  answer : ofDirectory.1 = ofMemory.1
  root_eq : ofDirectory.2.root = root
  inStep : ofDirectory.2.InStep ofMemory.2

theorem Agrees.map {α β : Type} {root : List String} {ofDirectory : Reply DirectoryStore α}
    {ofMemory : Reply MemoryStore α} (agrees : Agrees root ofDirectory ofMemory) (f : α → β) :
    Agrees root (ofDirectory.1.map f, ofDirectory.2) (ofMemory.1.map f, ofMemory.2) where
  answer := by rw [agrees.answer]
  root_eq := agrees.root_eq
  inStep := agrees.inStep

section

variable (inStep : directory.InStep memory) (plain : IsFileName name)
  (fits : FitsLimits directory.root name)

include inStep plain fits

theorem create_agrees :
    Agrees directory.root (directory.create name) (FileStore.create name memory) := by
  have located := inStep.locate_eq plain fits
  change Agrees _ _ (.ok (memory.create name).1, (memory.create name).2)
  rw [MemoryStore.create, MemoryStore.contains_eq]
  cases held : memory.read name with
  | none =>
    have creates : directory.tree.create [] (directory.root ++ [name]) =
        .ok (true, directory.tree.put (directory.root ++ [name]) (.file [])) := by
      rw [FileTree.create, located, held]
      rfl
    rw [DirectoryStore.create, onPath_eq plain _ creates]
    exact ⟨rfl, rfl, inStep.write name []⟩
  | some data =>
    have creates : directory.tree.create [] (directory.root ++ [name]) =
        .ok (false, directory.tree) := by
      rw [FileTree.create, located, held]
      rfl
    rw [DirectoryStore.create, onPath_eq plain _ creates]
    exact ⟨rfl, rfl, inStep⟩

theorem write_agrees (data : List UInt8) :
    Agrees directory.root (directory.write name data) (FileStore.write name data memory) := by
  have writes : (directory.tree.write [] (directory.root ++ [name]) data).map ((), ·) =
      .ok ((), directory.tree.put (directory.root ++ [name]) (.file data)) := by
    rw [FileTree.write, inStep.locate_eq plain fits]
    cases memory.read name <;> rfl
  rw [DirectoryStore.write,
    onPath_eq plain (fun path ↦ (directory.tree.write [] path data).map ((), ·)) writes]
  exact ⟨rfl, rfl, inStep.write name data⟩

theorem read_agrees :
    Agrees directory.root (directory.read name) (FileStore.read name memory) := by
  have reads : (directory.tree.file? [] (directory.root ++ [name])).map (·.map (·.2)) =
      .ok (memory.read name) := by
    rw [inStep.file?_eq plain fits]
    cases memory.read name <;> rfl
  rw [DirectoryStore.read,
    onPath_eq plain (fun path ↦ (directory.tree.file? [] path).map (·.map (·.2))) reads]
  exact ⟨rfl, rfl, inStep⟩

theorem contains_agrees :
    Agrees directory.root (directory.contains name) (FileStore.contains name memory) := by
  have reads : (directory.tree.file? [] (directory.root ++ [name])).map (·.isSome) =
      .ok (memory.contains name) := by
    rw [inStep.file?_eq plain fits, MemoryStore.contains_eq]
    cases memory.read name <;> rfl
  rw [DirectoryStore.contains,
    onPath_eq plain (fun path ↦ (directory.tree.file? [] path).map (·.isSome)) reads]
  exact ⟨rfl, rfl, inStep⟩

theorem removed_eq :
    ((directory.tree.file? [] (directory.root ++ [name])).map fun file? ↦
        match file? with
        | some (place, _) => (true, directory.tree.remove place)
        | none => (false, directory.tree)) =
      .ok (match memory.read name with
        | some _ => (true, directory.tree.remove (directory.root ++ [name]))
        | none => (false, directory.tree)) := by
  rw [inStep.file?_eq plain fits]
  cases memory.read name <;> rfl

theorem delete_agrees :
    Agrees directory.root (directory.delete name) (FileStore.delete name memory) := by
  change Agrees _ _ (.ok (memory.contains name), (memory.delete name).2)
  rw [MemoryStore.contains_eq, DirectoryStore.delete,
    onPath_eq plain _ (removed_eq inStep plain fits)]
  cases held : memory.read name with
  | none => exact ⟨rfl, rfl, inStep.delete_absent held⟩
  | some data => exact ⟨rfl, rfl, inStep.delete name⟩

end

/-- One call, whatever it is, has the same answer from both stores and keeps them in step. -/
theorem perform_agrees (call : StoreCall) (inStep : directory.InStep memory)
    (plain : IsFileName call.name) (fits : FitsLimits directory.root call.name) :
    Agrees directory.root (call.perform directory) (call.perform memory) := by
  cases call with
  | create name => exact (create_agrees inStep plain fits).map StoreAnswer.whether
  | write name data => exact (write_agrees inStep plain fits data).map fun _ ↦ StoreAnswer.done
  | read name => exact (read_agrees inStep plain fits).map StoreAnswer.content
  | delete name => exact (delete_agrees inStep plain fits).map StoreAnswer.whether
  | contains name => exact (contains_agrees inStep plain fits).map StoreAnswer.whether

/-- Any number of calls has the same answers, and the same files after each. -/
theorem replies_agree (calls : List StoreCall) (inStep : directory.InStep memory)
    (plain : ∀ call ∈ calls, IsFileName call.name)
    (fits : ∀ call ∈ calls, FitsLimits directory.root call.name) :
    List.Forall₂ (Agrees directory.root) (StoreCall.replies calls directory)
      (StoreCall.replies calls memory) := by
  induction calls generalizing directory memory with
  | nil => exact .nil
  | cons call calls ih =>
    have agrees := perform_agrees call inStep (plain call List.mem_cons_self)
      (fits call List.mem_cons_self)
    have rest := ih agrees.inStep (fun next met ↦ plain next (List.mem_cons_of_mem _ met))
      fun next met ↦ agrees.root_eq ▸ fits next (List.mem_cons_of_mem _ met)
    rw [agrees.root_eq] at rest
    exact .cons agrees rest

/-- A directory that has just been made, with nothing in it, is in step with an empty store. -/
theorem new_inStep {root : List String} {tree : FileTree} (resolved : ".." ∉ root)
    (opens : DirectoryStore.new root tree = .ok directory)
    (nothing : ∀ path ≠ [], directory.tree.entry? (root ++ path) = none) :
    directory.root = root ∧ directory.InStep MemoryStore.empty := by
  unfold DirectoryStore.new at opens
  cases made : tree.makeDirectory root with
  | error error =>
    rw [made] at opens
    cases opens
  | ok madeTree =>
    rw [made] at opens
    cases opens
    refine ⟨rfl, resolved, FileTree.follow_makeDirectory resolved made, fun path below ↦ ?_⟩
    rw [nothing path below]
    match path with
    | [] => rfl
    | [_] => rfl
    | _ :: _ :: _ => rfl

/--
A store in an empty directory and an empty store in memory give the same answers to the same calls,
and hold the same files after each of them.
-/
theorem replies_eq_memory {root : List String} {tree : FileTree} (calls : List StoreCall)
    (resolved : ".." ∉ root) (opens : DirectoryStore.new root tree = .ok directory)
    (nothing : ∀ path ≠ [], directory.tree.entry? (root ++ path) = none)
    (plain : ∀ call ∈ calls, IsFileName call.name)
    (fits : ∀ call ∈ calls, FitsLimits root call.name) :
    List.Forall₂ (fun ofDirectory ofMemory ↦
        ofDirectory.1 = ofMemory.1 ∧ ofDirectory.2.Mirrors ofMemory.2)
      (StoreCall.replies calls directory) (StoreCall.replies calls MemoryStore.empty) := by
  obtain ⟨root_eq, inStep⟩ := new_inStep resolved opens nothing
  subst root_eq
  exact (replies_agree calls inStep plain fits).imp
    fun _ _ agrees ↦ ⟨agrees.answer, agrees.inStep.mirrors⟩

/-- A file that is written, deleted and created again is empty, in the directory as in memory. -/
theorem replies_eq_memory_again :
    ∃ directory, DirectoryStore.new ["out"] FileTree.empty = .ok directory ∧
      List.Forall₂ (fun ofDirectory ofMemory ↦
          ofDirectory.1 = ofMemory.1 ∧ ofDirectory.2.Mirrors ofMemory.2)
        (StoreCall.replies
          [.create "a", .write "a" [1], .delete "a", .contains "a", .create "a", .read "a"]
          directory)
        (StoreCall.replies
          [.create "a", .write "a" [1], .delete "a", .contains "a", .create "a", .read "a"]
          MemoryStore.empty) := by
  have opens : DirectoryStore.new ["out"] FileTree.empty =
      .ok ⟨["out"], ⟨[(["out"], .directory)]⟩⟩ := by
    rw [DirectoryStore.new, FileTree.makeDirectory]
    rfl
  have plain : IsFileName "a" :=
    ⟨by decide, by decide, by decide, by decide, by decide⟩
  refine ⟨_, opens, replies_eq_memory _ (by decide) opens (fun path below ↦ ?_) ?_ ?_⟩
  · obtain ⟨name, rest, rfl⟩ := List.exists_cons_of_ne_nil below
    rfl
  · simp only [List.forall_mem_cons, StoreCall.name]
    exact ⟨plain, plain, plain, plain, plain, plain, by simp⟩
  · have fits : FitsLimits ["out"] "a" := ⟨by decide, by decide⟩
    simp only [List.forall_mem_cons, StoreCall.name]
    exact ⟨fits, fits, fits, fits, fits, fits, by simp⟩

end DirectoryStore

end MiniA64
