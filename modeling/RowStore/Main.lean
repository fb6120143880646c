import RowStore.CommandLine.Run

/-! # The program
Reads the files that the arguments name, runs the command on them, and writes what it has changed. -/

namespace RowStore.CommandLine

/-- The paths that a request names. -/
def Request.paths : Request → List String
  | .run _ _ (.convert input output _ _) => [input, output]
  | .run _ _ (.print file _) | .run _ _ (.info file _) => [file]
  | _ => []

/-- The places on the way that a path takes. -/
def placesOn (t : FileTree) (p : Path) : List Location :=
  (List.range (p.steps.length + 1)).map fun n => (p.steps.take n).foldl FileTree.follow (t.start p)

/-- Takes what stands at a place over into a tree. -/
def takeIn (t : FileTree) (l : Location) : IO FileTree := do
  let path := (← IO.currentDir) / t.fullPath l
  if ← path.isDir then return t.put l .directory
  else if ← path.pathExists then return t.write l (← IO.FS.readBinFile path).toList
  else return t

/-- The part of the disk that a request names. -/
def diskFor (r : Request) : IO FileTree := do
  let here := (← IO.currentDir).toString
  let cwd := (Path.parse "" here).steps.foldl FileTree.follow []
  let t : FileTree := { FileTree.empty "" with cwd }
  let above := (List.range (cwd.length + 1)).map cwd.take
  let named := r.paths.flatMap fun text => placesOn t (.parse "" text)
  (above ++ named).foldlM takeIn t

/-- Writes the files and directories of a tree that have changed. -/
def putBack (before after : FileTree) : IO Unit := do
  let here ← IO.currentDir
  for (l, node) in after.nodes.toList.reverse do
    if before.node? l ≠ some node then
      match node with
      | .directory => IO.FS.createDirAll (here / after.fullPath l)
      | .file content => IO.FS.writeBinFile (here / after.fullPath l) (ByteArray.mk content.toArray)

end RowStore.CommandLine

open RowStore CommandLine in
/-- Runs the program. -/
def main (args : List String) : IO UInt32 := do
  let request := Request.ofArgs args
  let disk ← diskFor request
  let (after, output) := runRequest disk request
  putBack disk after
  IO.print output.out
  IO.eprint output.err
  return output.code.toUInt32
