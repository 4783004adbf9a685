import MiniA64.Host.Error

/-!
# Trees of files

A directory with everything below it, which is all that a tool can see of the file system. A
path is a list of names, followed from some directory; the name `..` leads back up, and stays at
the top of the tree. On the way to a path every name but the last has to be that of a directory.
-/

namespace MiniA64

inductive TreeEntry
  | directory
  | file (data : List UInt8)
  deriving DecidableEq, Repr

/-- Entries by their paths from the top of the tree, without the top itself. -/
structure FileTree where
  entries : List (List String × TreeEntry)
  deriving DecidableEq, Repr

namespace FileTree

def empty : FileTree := ⟨[]⟩

def entry? (tree : FileTree) (path : List String) : Option TreeEntry :=
  if path.isEmpty then some .directory else tree.entries.lookup path

/-- Puts an entry in the place of an older one, or at the end. -/
def put (tree : FileTree) (path : List String) (entry : TreeEntry) : FileTree :=
  if tree.entries.any fun old ↦ old.1 = path then
    ⟨tree.entries.map fun old ↦ if old.1 = path then (path, entry) else old⟩
  else ⟨tree.entries ++ [(path, entry)]⟩

def remove (tree : FileTree) (path : List String) : FileTree :=
  ⟨tree.entries.filter fun entry ↦ entry.1 ≠ path⟩

/-- The files in order of creation. -/
def files (tree : FileTree) : List (List String × List UInt8) :=
  tree.entries.filterMap fun (path, entry) ↦
    match entry with
    | .file data => some (path, data)
    | .directory => none

/-- The files that an older tree does not have, or not with the same content. -/
def changedFrom (tree old : FileTree) : List (List String × List UInt8) :=
  tree.files.filter fun file ↦ !old.files.contains file

/-- The paths of an older tree at which there is nothing any more. -/
def removedFrom (tree old : FileTree) : List (List String) :=
  (old.entries.map (·.1)).filter fun path ↦ (tree.entry? path).isNone

/-- Puts the whole tree into a directory of a new one. -/
def below (name : String) (tree : FileTree) : FileTree :=
  ⟨([name], .directory) :: tree.entries.map fun (path, entry) ↦ (name :: path, entry)⟩

/-- What lies in a directory. -/
def inside (name : String) (tree : FileTree) : FileTree :=
  ⟨tree.entries.filterMap fun (path, entry) ↦
    match path with
    | first :: next :: rest => if first = name then some (next :: rest, entry) else none
    | _ => none⟩

/-- The longest name, and the longest path, in bytes. -/
def nameLimit : Nat := 255

def pathLimit : Nat := 4095

def textOf (path : List String) : String := "/".intercalate path

/-- Takes names by themselves, without regard to what is there. -/
def resolve (directory path : List String) : List String :=
  path.foldl (fun place name ↦ if name = ".." then place.dropLast else place ++ [name]) directory

/-- Follows names from a directory. At the end there may be nothing yet. -/
def follow (tree : FileTree) (directory : List String) :
    List String → Except FileError (List String × Option TreeEntry)
  | [] => .ok (directory, some .directory)
  | name :: rest =>
    if name = ".." then tree.follow directory.dropLast rest
    else if nameLimit < name.utf8ByteSize then .error .nameTooLong
    else
      let path := directory ++ [name]
      match tree.entry? path with
      | some .directory => tree.follow path rest
      | some (.file data) =>
        if rest.isEmpty then .ok (path, some (.file data)) else .error .notDirectory
      | none => if rest.isEmpty then .ok (path, none) else .error .notFound

/-- The length of a path in writing. One from the top of the tree begins with a slash. -/
def writtenLength (directory path : List String) : Nat :=
  (textOf path).utf8ByteSize + if directory.isEmpty then 1 else 0

/-- The place that a path leads to, and what is there. -/
def locate (tree : FileTree) (directory path : List String) :
    Except FileError (List String × Option TreeEntry) :=
  if pathLimit < writtenLength directory path then .error .nameTooLong
  else tree.follow directory path

/-- Replaces the content of a file, which is created if there is none. -/
def write (tree : FileTree) (directory path : List String) (data : List UInt8) :
    Except FileError FileTree := do
  match ← tree.locate directory path with
  | (_, some .directory) => .error .isDirectory
  | (place, _) => .ok (tree.put place (.file data))

/-- Creates an empty file, unless there is something already. -/
def create (tree : FileTree) (directory path : List String) :
    Except FileError (Bool × FileTree) := do
  match ← tree.locate directory path with
  | (place, none) => .ok (true, tree.put place (.file []))
  | (_, some _) => .ok (false, tree)

/-- The file at a path, if there is one. A name that is too long is an error. -/
def file? (tree : FileTree) (directory path : List String) :
    Except FileError (Option (List String × List UInt8)) :=
  match tree.locate directory path with
  | .ok (place, some (.file data)) => .ok (some (place, data))
  | .ok _ => .ok none
  | .error .nameTooLong => .error .nameTooLong
  | .error _ => .ok none

/--
Makes a directory, after those above it where they are missing. An error comes with the path of
the directory that could not be made.
-/
def makeDirectory (tree : FileTree) (path : List String) :
    Except (FileError × List String) FileTree :=
  match tree.locate [] path with
  | .ok (_, some .directory) => .ok tree
  | .ok (_, some (.file _)) => .error (.exists_, path)
  | .ok (_, none) => .ok (tree.put path .directory)
  | .error .notFound =>
    if path.isEmpty then .ok tree
    else do
      let tree ← tree.makeDirectory path.dropLast
      if nameLimit < (path.getLastD "").utf8ByteSize then throw (.nameTooLong, path)
      return tree.put path .directory
  | .error error => .error (error, path)
  termination_by path.length
  decreasing_by
    have : path ≠ [] := by simp_all
    have := List.length_pos_iff.mpr this
    simp only [List.length_dropLast]
    omega

/-- The names in the text of a path, where empty names and single dots say nothing. -/
def namesOf (text : String) : List String :=
  ((text.toList.splitOn '/').map String.ofList).filter fun name ↦ !name.isEmpty && name != "."

/-- A tree with some files, and with the directories they are in. -/
def ofFiles (files : List (String × List UInt8)) : FileTree :=
  files.foldl
    (fun tree (text, data) ↦
      let path := namesOf text
      match tree.makeDirectory path.dropLast with
      | .ok tree => tree.put path (.file data)
      | .error _ => tree)
    empty

end FileTree

end MiniA64
