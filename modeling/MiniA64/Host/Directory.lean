import MiniA64.Host.Basic
import MiniA64.Host.FileTree

/-!
# File stores in a directory

A store whose files are those below one directory of a tree. File names are paths from that
directory, or from the top of the tree if they begin with a slash. They are resolved by their
names alone, so `..` takes away the name before it, and must lead to a place below the directory.
-/

namespace MiniA64

structure DirectoryStore where
  root : List String
  tree : FileTree
  deriving Repr

namespace DirectoryStore

/-- A store in a directory, which is made if it does not exist. -/
def new (root : List String) (tree : FileTree) :
    Except (FileError × List String) DirectoryStore :=
  (tree.makeDirectory root).map (⟨root, ·⟩)

/-- The path of a file in the tree, where it is below the root of the store. -/
def resolve? (root : List String) (name : String) : Option (List String) :=
  let start := if name.startsWith "/" then [] else root
  let path := FileTree.resolve start (FileTree.namesOf name)
  if root.isPrefixOf path && root.length < path.length then some path else none

/-- Runs an operation on the path of a file. -/
def onPath {α : Type} (name : String) (operation : List String → Except FileError α)
    (store : DirectoryStore) : Except DeviceError α :=
  if name.toList.contains '\x00' then .error .nullInName
  else
    match resolve? store.root name with
    | none => .error (.outsideStore name)
    | some path =>
      (operation path).mapError fun error ↦ .file error ("/" ++ FileTree.textOf path)

/-- Takes the tree that an operation leaves, if it succeeds. -/
def change {α : Type} (result : Except DeviceError (α × FileTree)) (store : DirectoryStore) :
    Reply DirectoryStore α :=
  match result with
  | .ok (answer, tree) => (.ok answer, { store with tree })
  | .error error => (.error error, store)

def create (name : String) (store : DirectoryStore) : Reply DirectoryStore Bool :=
  change (onPath name (store.tree.create []) store) store

def write (name : String) (data : List UInt8) (store : DirectoryStore) :
    Reply DirectoryStore Unit :=
  change (onPath name (fun path ↦ (store.tree.write [] path data).map ((), ·)) store) store

def read (name : String) (store : DirectoryStore) :
    Reply DirectoryStore (Option (List UInt8)) :=
  (onPath name (fun path ↦ (store.tree.file? [] path).map (·.map (·.2))) store, store)

def delete (name : String) (store : DirectoryStore) : Reply DirectoryStore Bool :=
  change
    (onPath name
      (fun path ↦
        (store.tree.file? [] path).map fun file? ↦
          match file? with
          | some (place, _) => (true, store.tree.remove place)
          | none => (false, store.tree))
      store)
    store

def contains (name : String) (store : DirectoryStore) : Reply DirectoryStore Bool :=
  (onPath name (fun path ↦ (store.tree.file? [] path).map (·.isSome)) store, store)

instance : FileStore DirectoryStore where
  create := create
  write := write
  read := read
  delete := delete
  contains := contains

end DirectoryStore

end MiniA64
