import JobRoster.Settings.Basic
import JobRoster.Syntax.Source

/-!
# Valid settings

Settings are valid when each of them can stand where generated code puts it. The first one that
cannot is reported.
-/

namespace JobRoster

open Syntax

/-- Why settings cannot be used. -/
inductive SettingsError where
  | markerNotPath (marker : String) (error : SyntaxError)
  | markerNotQualified (marker : String)
  | registryNotPath (registry : String) (error : SyntaxError)
  | jobTraitNotPath (jobTrait : String) (error : SyntaxError)
  | methodNotIdentifier (method : String) (error : SyntaxError)
  | outputNotPlain (output : String)
deriving DecidableEq, Repr

def SettingsError.message : SettingsError → String
  | markerNotPath marker error => s!"marker `{marker}` is not a path: {error.message}"
  | markerNotQualified marker => s!"marker `{marker}` must be fully qualified (crate::name)"
  | registryNotPath registry error =>
    s!"registry `{registry}` is not a type path: {error.message}"
  | jobTraitNotPath jobTrait error => s!"job trait `{jobTrait}` is not a path: {error.message}"
  | methodNotIdentifier method error => s!"method `{method}` is not an identifier: {error.message}"
  | outputNotPlain output => s!"output name `{output}` must be a plain file name"

namespace Settings

/-- Whether a name is that of a file in a directory, not a path that leads elsewhere. -/
def isPlainFileName (name : String) : Bool :=
  !name.isEmpty && !name.toList.contains '/' && !name.toList.contains '\\' && name ≠ "." &&
    name ≠ ".."

def validateMarker (marker : String) : Except SettingsError Unit := do
  let path ← (parsePath marker).mapError (.markerNotPath marker)
  if path.segments.length < 2 then throw (.markerNotQualified marker)

def validateMethod (method : String) : Except SettingsError Unit := do
  let _ ← (parseIdent method).mapError (.methodNotIdentifier method)

/-- Checks the settings one after another. -/
def validate (settings : Settings) : Except SettingsError Unit := do
  validateMarker settings.marker
  let _ ← (parsePath settings.registry).mapError (.registryNotPath settings.registry)
  let _ ← (parsePath settings.jobTrait).mapError (.jobTraitNotPath settings.jobTrait)
  validateMethod settings.method
  validateMethod settings.methodWithOptions
  if !isPlainFileName settings.output then throw (.outputNotPlain settings.output)

end Settings

end JobRoster
