import JobRoster.Crate.Host
import JobRoster.Pass.Run
import JobRoster.Settings.Validation

/-!
# Packages

A crate together with what its manifest says about generation, and a pass over it.
-/

namespace JobRoster

open Files

structure Package where
  crate : Crate
  /-- The manifest that the package was loaded from. -/
  manifest : Option FilePath
  /-- The settings in the manifest. -/
  layer : Overrides

namespace Package

/-- A crate without a manifest. -/
def ofCrate (crate : Crate) : Package :=
  ⟨crate, none, {}⟩

/-- The settings for a package: the defaults, then the manifest's, then the caller's. -/
def settings (package : Package) (overrides : Overrides) : Settings :=
  (Settings.default.apply package.layer).apply overrides

/-- One pass over a package. Settings that are not valid end it before anything else. -/
def generate {S : Type} [Sink S] (package : Package) (overrides : Overrides)
    (cancel : Cancellation) (sink : S) : S × Except Failure Outcome :=
  let settings := package.settings overrides
  match settings.validate with
  | .error error => (sink, .error (.settings error))
  | .ok () => JobRoster.generate settings package.crate.host cancel sink

theorem generate_of_invalid {S : Type} [Sink S] {package : Package} {overrides : Overrides}
    {error : SettingsError} (h : (package.settings overrides).validate = .error error)
    (cancel : Cancellation) (sink : S) :
    package.generate overrides cancel sink = (sink, .error (.settings error)) := by
  unfold generate
  simp only [h]

theorem generate_of_valid {S : Type} [Sink S] {package : Package} {overrides : Overrides}
    (h : (package.settings overrides).validate = .ok ()) (cancel : Cancellation) (sink : S) :
    package.generate overrides cancel sink =
      JobRoster.generate (package.settings overrides) package.crate.host cancel sink := by
  unfold generate
  simp only [h]

end Package

end JobRoster
