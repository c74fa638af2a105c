import JobRoster.CommandLine.Arguments
import JobRoster.Package.Loading
import JobRoster.Unit.DirectorySink

/-!
# The command line

Runs one pass over a package as the arguments ask. The unit goes to a directory, or to the standard
output if no directory is given.
-/

namespace JobRoster.CommandLine

open Files

def versionText : String := "jobgen 0.1.0\n"

def usageText : String := "Usage: jobgen [OPTIONS]\n\n"

def helpText : String :=
  "Generate recurring job registrations for a crate\n\n" ++ usageText ++
  "Options:\n" ++
  "      --manifest-path <MANIFEST_PATH>  Manifest of the crate to scan [default: Cargo.toml]\n" ++
  "      --out-dir <OUT_DIR>              Write the unit into this directory instead of printing it\n" ++
  "      --marker <MARKER>                Fully qualified marker attribute path\n" ++
  "      --registry <REGISTRY>            Registry type the extension trait is implemented for\n" ++
  "      --job-trait <JOB_TRAIT>          Trait the registry methods require of every job type\n" ++
  "      --with-options                   Pass queue and time zone to the runtime\n" ++
  "      --output <OUTPUT>                Generated unit file name\n" ++
  "  -v, --verbose...                     More logging (-v for info, -vv for debug)\n" ++
  "  -h, --help                           Print help\n" ++
  "  -V, --version                        Print version\n"

/-- The text that tells of misuse. -/
def misuseText (error : UsageError) : String :=
  let usage := if error.showsUsage then usageText else ""
  s!"error: {error.message}\n\n" ++ usage ++ "For more information, try '--help'.\n"

/-- How a run of the program ends. -/
inductive Ending where
  | success
  | failed (failure : Failure)
  | misused (error : UsageError)
deriving DecidableEq, Repr

namespace Ending

/-- The exit code. -/
def code : Ending → Nat
  | success => 0
  | failed _ => 1
  | misused _ => 2

/-- What is written to the standard error. -/
def errorText : Ending → String
  | success => ""
  | failed failure => s!"Error: {failure.message}\n"
  | misused error => misuseText error

end Ending

/-- What a run of the program comes to: the tree after it, what it prints, and how it ends. -/
structure Reply where
  tree : FileTree
  printed : String
  ending : Ending

def endingOf {α : Type} : Except Failure α → Ending
  | .ok _ => .success
  | .error failure => .failed failure

/-- The text of the unit that a pass came to. -/
def unitText (outcome : Except Failure Outcome) : String :=
  match outcome with
  | .ok ⟨some u, _, _⟩ => u.text
  | _ => ""

/-- Runs the pass of a request. -/
def runRequest (request : Request) (tree : FileTree) : Reply :=
  match Package.load tree.sources request.manifestPath with
  | .error failure => ⟨tree, "", .failed failure⟩
  | .ok package =>
    match request.outDir with
    | some dir =>
      let (sink, outcome) :=
        package.generate request.overrides Cancellation.never (DirectorySink.mk tree dir)
      ⟨sink.tree, "", endingOf outcome⟩
    | none =>
      let (_, outcome) := package.generate request.overrides Cancellation.never MemorySink.empty
      ⟨tree, unitText outcome, endingOf outcome⟩

/-- Runs the program with some arguments. -/
def run (arguments : List String) (tree : FileTree) : Reply :=
  match read arguments with
  | .error error => ⟨tree, "", .misused error⟩
  | .ok .showHelp => ⟨tree, helpText, .success⟩
  | .ok .showVersion => ⟨tree, versionText, .success⟩
  | .ok (.run request) => runRequest request tree

end JobRoster.CommandLine
