import JobRoster.CommandLine.Demand

/-!
# The program

Runs the command line on the files of the disk. A snapshot of the disk is taken, path by path, until
it is enough for the run, and the changes that the run makes to it are then made on the disk.
-/

namespace JobRoster.Program

open Files CommandLine

/-- The text of a place, as an absolute path. -/
def absolute (place : Place) : String :=
  "/" ++ "/".intercalate place

/-- What is at a place on the disk. Its directory has to be there. -/
def probe (place : Place) : IO (Option Node) := do
  try
    return some (.file (← IO.FS.readBinFile (absolute place)) 0)
  catch
    | .noFileOrDirectory .. => return none
    | .inappropriateType .. => return some .directory
    | error => throw error

/-- The tree with all that is on the way from a place. -/
def explore (tree : FileTree) : Place → List String → IO FileTree
  | _, [] => return tree
  | place, piece :: pieces => do
    if piece = "." then explore tree place pieces
    else if piece = ".." then explore tree place.dropLast pieces
    else if FileTree.maxNameBytes < piece.utf8ByteSize then return tree
    else
      let place := place ++ [piece]
      match ← probe place with
      | some .directory => explore (tree.setNode place (some .directory)) place pieces
      | node => return tree.setNode place node

/-- The snapshot with one more path. -/
def take (snapshot : Snapshot) (path : FilePath) : IO Snapshot := do
  let taken := path :: snapshot.taken
  match snapshot.tree.route path with
  | .ok (place, pieces) => return ⟨← explore snapshot.tree place pieces, taken⟩
  | .error _ => return { snapshot with taken }

/-- Takes paths until the snapshot is enough for a run. -/
partial def takeAll (arguments : List String) (snapshot : Snapshot) : IO Snapshot := do
  match missing? arguments snapshot with
  | some path => takeAll arguments (← take snapshot path)
  | none => return snapshot

def makeChange : Change → IO Unit
  | .makeDirectory place => IO.FS.createDir (absolute place)
  | .writeFile place bytes => IO.FS.writeBinFile (absolute place) bytes
  | .removeFile place => IO.FS.removeFile (absolute place)

/-- Runs the program, and returns its exit code. -/
def run (arguments : List String) : IO UInt32 := do
  let working := (splitSlashes (← IO.FS.realPath ".").toString.toList).filter (· ≠ [])
  let snapshot ← takeAll arguments (Snapshot.start (working.map String.ofList))
  let reply := CommandLine.run arguments snapshot.tree
  (snapshot.tree.changes reply.tree).forM makeChange
  IO.print reply.printed
  IO.eprint reply.ending.errorText
  return UInt32.ofNat reply.ending.code

end JobRoster.Program

def main (arguments : List String) : IO UInt32 := do
  try
    JobRoster.Program.run arguments
  catch error =>
    IO.eprintln s!"Error: {error}"
    return 1
