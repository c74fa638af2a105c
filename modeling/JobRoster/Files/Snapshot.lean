import JobRoster.Files.FileTree

/-!
# Snapshots

A part of a file system: what some paths lead to. A program that reads from a snapshot is taken to
find any other path to be a file, and then fails to read it. Its failure names the path that the
snapshot lacks, so that a snapshot that is enough is found by running the program again and again.
-/

namespace JobRoster.Files

structure Snapshot where
  /-- What is at the places that the paths lead through. -/
  tree : FileTree
  taken : List FilePath

namespace Snapshot

/-- A snapshot without paths. -/
def start (working : Place) : Snapshot :=
  ⟨⟨[], working, 1⟩, []⟩

def has (snapshot : Snapshot) (path : FilePath) : Bool :=
  snapshot.taken.contains path

/-- The files of the snapshot, with any path that it lacks for a file that cannot be read. -/
def sources (snapshot : Snapshot) : Sources where
  isFile path := !snapshot.has path || snapshot.tree.isFile path
  read path := if snapshot.has path then snapshot.tree.readText path else .error .notFound
  depth := snapshot.tree.sources.depth

end Snapshot

/-! ## Changes -/

/-- What brings a file system from one tree to another. -/
inductive Change where
  | makeDirectory (place : Place)
  | writeFile (place : Place) (bytes : ByteArray)
  | removeFile (place : Place)
deriving DecidableEq

namespace FileTree

/-- The change that puts a node at a place, if another one or none is there. -/
def change? (tree : FileTree) (place : Place) (node : Node) : Option Change :=
  if tree.node? place = some node then none
  else
    match node with
    | .directory => some (.makeDirectory place)
    | .file bytes _ => some (.writeFile place bytes)

/-- The changes from one tree to another. Directories are made before what is in them. -/
def changes (before after : FileTree) : List Change :=
  (after.nodes.filterMap fun (place, node) => before.change? place node) ++
    (before.nodes.filter fun (place, _) => (after.node? place).isNone).map fun (place, _) =>
      .removeFile place

end FileTree

end JobRoster.Files
