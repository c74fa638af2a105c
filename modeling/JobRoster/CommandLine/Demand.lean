import JobRoster.CommandLine.Run
import JobRoster.Files.Snapshot

/-!
# What a run needs to know

Which path a run of the program asks for next, when all it knows of the file system is a snapshot.
-/

namespace JobRoster

open Files

/-- The path that could not be read or written. -/
def Failure.path? : Failure → Option FilePath
  | .io path _ => some path
  | .crate (.io path _) => some path
  | _ => none

namespace CommandLine

/-- The paths that a pass into a directory reads or changes. -/
def sinkPaths (request : Request) (package : Package) : List FilePath :=
  match request.outDir with
  | some dir => [dir, dir.join (package.settings request.overrides).output]
  | none => []

/-- The first path that a run asks for and the snapshot lacks. If there is none, the run comes to
    the same in the snapshot's tree as in the file system. -/
def missing? (arguments : List String) (snapshot : Snapshot) : Option FilePath :=
  match read arguments with
  | .ok (.run request) =>
    let paths :=
      match Package.load snapshot.sources request.manifestPath with
      | .ok package => sinkPaths request package
      | .error failure => failure.path?.toList
    paths.find? fun path => !snapshot.has path
  | _ => none

end CommandLine

end JobRoster
