import JobRoster.Package.Loading
import JobRoster.Unit.DirectorySink

/-!
# Builds

A pass over the package that is being built, for use from a build script. Directories come from the
caller or from the environment. The build is told which files to watch even if the pass then fails.
-/

namespace JobRoster

open Files

/-- The variables of the environment that a build looks at. -/
structure Environment where
  manifestDir : Option String
  outDir : Option String
deriving DecidableEq, Repr

/-- What a build script asks for. -/
structure Build where
  manifestDir : Option FilePath := none
  outDir : Option FilePath := none
  overrides : Overrides := {}
  /-- Whether the files to watch are printed. -/
  rerunIfChanged : Bool := true
deriving DecidableEq, Repr

/-- What a build comes to: the tree after it, the lines it prints, and its outcome. -/
structure BuildResult where
  tree : FileTree
  printed : List String
  outcome : Except Failure Outcome

namespace Build

/-- A directory as given, or from a variable. -/
def directory (explicit : Option FilePath) (variableName : String) (value : Option String) :
    Except Failure FilePath :=
  match explicit, value with
  | some dir, _ => .ok dir
  | none, some dir => .ok ⟨dir⟩
  | none, none => .error (.missingVariable variableName)

/-- The directories of the manifest and of the output. -/
def directories (build : Build) (env : Environment) : Except Failure (FilePath × FilePath) := do
  let manifestDir ← directory build.manifestDir "CARGO_MANIFEST_DIR" env.manifestDir
  let outDir ← directory build.outDir "OUT_DIR" env.outDir
  return (manifestDir, outDir)

/-- The lines that tell which files to watch. -/
def watchLines (manifestDir : FilePath) (package : Package) : List String :=
  let paths := package.manifest.toList ++ [manifestDir.join "src"] ++ package.crate.files
  paths.map fun path => "cargo:rerun-if-changed=" ++ path.text

def run (build : Build) (env : Environment) (tree : FileTree) : BuildResult :=
  match build.directories env with
  | .error failure => ⟨tree, [], .error failure⟩
  | .ok (manifestDir, outDir) =>
    match Package.load tree.sources (manifestDir.join "Cargo.toml") with
    | .error failure => ⟨tree, [], .error failure⟩
    | .ok package =>
      let printed := if build.rerunIfChanged then watchLines manifestDir package else []
      let (sink, outcome) :=
        package.generate build.overrides Cancellation.never (DirectorySink.mk tree outDir)
      ⟨sink.tree, printed, outcome⟩

end Build

end JobRoster
