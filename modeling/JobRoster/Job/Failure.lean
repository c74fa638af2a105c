import JobRoster.Crate.Loading
import JobRoster.Job.Diagnostic
import JobRoster.Settings.Validation

/-!
# Failures

The ways in which a run ends without a result, and their messages.
-/

namespace JobRoster

open Files

/-- Why a manifest cannot be used. -/
inductive ManifestError where
  /-- The text is no manifest. -/
  | malformed (message : String)
  | noPackage
deriving DecidableEq, Repr

def ManifestError.message : ManifestError → String
  | malformed message => message
  | noPackage => "no [package] table (virtual workspace manifests are not supported)"

inductive Failure where
  /-- The crate cannot be loaded. -/
  | crate (error : Crate.LoadError)
  /-- A file cannot be read, written or removed. -/
  | io (path : FilePath) (error : IoError)
  | manifest (path : FilePath) (error : ManifestError)
  | settings (error : SettingsError)
  | diagnostics (found : List Diagnostic)
  /-- Two declarations have one job id. -/
  | duplicateJobId (id first second : String)
  | missingVariable (name : String)
  | cancelled
deriving DecidableEq, Repr

namespace Failure

def ioMessage (path : FilePath) (error : IoError) : String :=
  s!"I/O error on {path.text}: {error.message}"

def crateMessage : Crate.LoadError → String
  | .io path error => ioMessage path error
  | .malformed path error => s!"failed to parse {path.text}:{error.line}: {error.message}"
  | .moduleNotFound name declaredIn =>
    s!"module `{name}` declared in {declaredIn.text} has no source file"
  | .endless path => s!"module files that include {path.text} never end"

/-- One diagnostic a line, indented. -/
def diagnosticLines (diagnostics : List Diagnostic) : String :=
  "\n".intercalate (diagnostics.map fun diagnostic => "  " ++ diagnostic.message)

/-- The failure in words. -/
def message : Failure → String
  | crate error => crateMessage error
  | io path error => ioMessage path error
  | manifest path error => s!"invalid manifest {path.text}: {error.message}"
  | settings error => s!"invalid generator configuration: {error.message}"
  | diagnostics found =>
    s!"{found.length} fatal configuration error(s):\n{diagnosticLines found}"
  | duplicateJobId id first second =>
    s!"job id `{id}` is registered by both `{first}` and `{second}`"
  | missingVariable name => s!"environment variable {name} is not set"
  | cancelled => "generation cancelled"

end Failure

end JobRoster
