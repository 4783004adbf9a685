import MiniA64.Host.FileTree

/-!
# Paths on the command line

A path is kept as its names, so that the text of a path is the shortest one for the same names.
It starts at the top of the tree or in the directory of the workspace. At its start exactly two
slashes are kept, and any other number counts as one. Whether a path as written may be used
depends on its exact text too: behind a slash at the end there has to be a directory.
-/

namespace MiniA64

/-- A tree, and the directory in it where a tool works. -/
structure Workspace where
  tree : FileTree
  directory : List String
  deriving Repr

structure Path where
  /-- How many slashes it begins with. -/
  slashes : Nat
  names : List String
  deriving DecidableEq, Repr

namespace Path

def ofText (text : String) : Path :=
  let slashes := (text.toList.takeWhile (· = '/')).length
  ⟨if slashes = 2 then 2 else min slashes 1, FileTree.namesOf text⟩

/-- Whether a path starts at the top of the tree. -/
def isAbsolute (path : Path) : Bool := path.slashes ≠ 0

/-- The text of a path. The directory in which a tool runs is a single dot. -/
def text (path : Path) : String :=
  let written := String.ofList (List.replicate path.slashes '/') ++ FileTree.textOf path.names
  if written.isEmpty then "." else written

def fileName (path : Path) : String := path.names.getLastD ""

/-- A file name without its last suffix. A dot at either end makes no suffix. -/
def stem (name : String) : String :=
  let reversed := name.toList.reverse
  let suffix := reversed.takeWhile (· ≠ '.')
  match reversed.dropWhile (· ≠ '.') with
  | '.' :: rest =>
    if suffix.isEmpty || rest.isEmpty then name else String.ofList rest.reverse
  | _ => name

/-- Replaces the suffix of the file name. -/
def withSuffix (suffix : String) (path : Path) : Path :=
  { path with names := path.names.dropLast ++ [stem path.fileName ++ suffix] }

/-- The directory that a path starts from. -/
def start (workspace : Workspace) (path : Path) : List String :=
  if path.isAbsolute then [] else workspace.directory

/-- What is at a path. -/
def locate (workspace : Workspace) (path : Path) :
    Except FileError (List String × Option TreeEntry) :=
  workspace.tree.locate (path.start workspace) path.names

/-- What is at a path as written, if there is anything. -/
def written? (workspace : Workspace) (text : String) : Option TreeEntry :=
  if text.isEmpty || FileTree.pathLimit < text.utf8ByteSize then none
  else
    match (ofText text).locate workspace with
    | .ok (_, some (.file data)) =>
      if text.endsWith "/" || text.endsWith "/." then none else some (.file data)
    | .ok (_, entry) => entry
    | .error _ => none

def isFile (workspace : Workspace) (text : String) : Bool :=
  match written? workspace text with
  | some (.file _) => true
  | _ => false

def isDirectory (workspace : Workspace) (text : String) : Bool :=
  match written? workspace text with
  | some .directory => true
  | _ => false

end Path

end MiniA64
