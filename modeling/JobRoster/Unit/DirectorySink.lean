import JobRoster.Files.FileTree
import JobRoster.Unit.Sink

/-!
# Directory sinks

Publishes units as files of a directory, which is made if it is not there. A file that holds the
text already is not written again, so that its time of change stays.
-/

namespace JobRoster

open Files

/-- A directory of a file tree. -/
structure DirectorySink where
  tree : FileTree
  dir : FilePath

namespace DirectorySink

/-- Where a unit is written to. -/
def pathOf (sink : DirectorySink) (name : String) : FilePath :=
  sink.dir.join name

/-- Writes a file of the directory. -/
def write (sink : DirectorySink) (path : FilePath) (bytes : ByteArray) :
    DirectorySink × Except Failure Unit :=
  match sink.tree.makeDirectories sink.dir with
  | (tree, .error error) => ({ sink with tree }, .error (.io sink.dir error))
  | (tree, .ok ()) =>
    let (tree, done) := tree.write path bytes
    ({ sink with tree }, done.mapError (.io path))

def add (sink : DirectorySink) (u : SourceUnit) : DirectorySink × Except Failure Unit :=
  let path := sink.pathOf u.name
  let bytes := u.text.toUTF8
  match sink.tree.read path with
  | .ok existing => if existing = bytes then (sink, .ok ()) else sink.write path bytes
  | .error .notFound => sink.write path bytes
  | .error error => (sink, .error (.io path error))

def remove (sink : DirectorySink) (name : String) : DirectorySink × Except Failure Unit :=
  let path := sink.pathOf name
  match sink.tree.remove path with
  | (tree, .ok ()) => ({ sink with tree }, .ok ())
  | (tree, .error .notFound) => ({ sink with tree }, .ok ())
  | (tree, .error error) => ({ sink with tree }, .error (.io path error))

instance : Sink DirectorySink where
  publish := add
  withdraw := remove

end DirectorySink

end JobRoster
