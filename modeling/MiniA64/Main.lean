import MiniA64.CommandLine.Tool

/-!
# Program entry

Takes the name of a tool and its arguments. The part of the file system that the arguments
mention is read into a tree, the tool runs on it, and what the tool changed is written back.
-/

namespace MiniA64

/-- Reads a directory with all that is below it. -/
partial def readDirectory (tree : FileTree) (path : List String) : IO FileTree := do
  let mut tree := tree.put path .directory
  for entry in ← (← IO.FS.realPath ("/" ++ FileTree.textOf path)).readDir do
    let below := path ++ [entry.fileName]
    if ← entry.path.isDir then tree ← readDirectory tree below
    else tree := tree.put below (.file (← IO.FS.readBinFile entry.path).toList)
  return tree

/-- Reads what is at a path, if there is anything. Of a directory only the presence is read. -/
def readPlace (tree : FileTree) (path : List String) : IO FileTree := do
  try
    let place ← IO.FS.realPath ("/" ++ FileTree.textOf path)
    if ← place.isDir then return tree.put path .directory
    else return tree.put path (.file (← IO.FS.readBinFile place).toList)
  catch _ => return tree

/-- Reads all that a tool can reach by the paths in its arguments. -/
def readTree (directory : List String) (arguments : Arguments) : IO FileTree := do
  let mut tree := FileTree.empty
  for path in Tool.mentioned arguments do
    let place := FileTree.resolve (if path.isAbsolute then [] else directory) path.names
    for length in [0:place.length] do
      tree ← readPlace tree (place.take (length + 1))
  match arguments.value? "files-dir" with
  | none => return tree
  | some text =>
    let path := Path.ofText text
    let place := FileTree.resolve (if path.isAbsolute then [] else directory) path.names
    if tree.entry? place = some .directory then readDirectory tree place else return tree

/-- Makes the file system agree with a tree that a tool has changed. -/
def writeChanges (old tree : FileTree) : IO Unit := do
  for path in tree.removedFrom old do
    IO.FS.removeFile ("/" ++ FileTree.textOf path)
  for (path, entry) in tree.entries do
    if entry = .directory then IO.FS.createDirAll ("/" ++ FileTree.textOf path)
  for (path, data) in tree.changedFrom old do
    IO.FS.writeBinFile ("/" ++ FileTree.textOf path) ⟨data.toArray⟩

partial def readAll (stream : IO.FS.Stream) (data : ByteArray) : IO ByteArray := do
  let chunk ← stream.read 4096
  if chunk.isEmpty then return data else readAll stream (data ++ chunk)

def environment : IO (List (String × String)) := do
  let names := Config.settings.map (·.1)
  let values ← names.mapM fun name ↦ return (← IO.getEnv name).map (name, ·)
  return values.filterMap id

def runTool (tool : Tool) (arguments : List String) : IO UInt32 := do
  let directory := FileTree.namesOf (← IO.currentDir).toString
  let given := (Arguments.read tool.options arguments).toOption.getD ⟨[], []⟩
  let tree ← readTree directory given
  let input ← if tool.readsInput given then readAll (← IO.getStdin) .empty else pure .empty
  let outcome := tool.run .plain ⟨arguments, ⟨tree, directory⟩, ← environment, input.toList⟩
  writeChanges tree outcome.tree
  (← IO.getStdout).write ⟨outcome.output.toArray⟩
  (← IO.getStderr).write ⟨outcome.errors.toArray⟩
  return UInt32.ofNat outcome.exit

end MiniA64

def main (arguments : List String) : IO UInt32 := do
  match arguments with
  | name :: rest =>
    match MiniA64.Tool.ofName? name with
    | some tool => MiniA64.runTool tool rest
    | none =>
      IO.eprintln ("unknown tool " ++ name)
      return 2
  | [] =>
    IO.eprintln "usage: armasm | armrun | armdisasm, with its arguments"
    return 2
