import JobRoster.Text.Blank
import JobRoster.Text.Segments

/-!
# Settings

The names that generated code is made of. Settings come in layers: the defaults, what a manifest
says, what the caller says. A layer sets some of them and leaves the others.
-/

namespace JobRoster

/-- What a registration call passes on. -/
inductive Template where
  /-- Job id and cron expression. -/
  | basic
  /-- Also queue and time zone. -/
  | withOptions
deriving DecidableEq, Repr

namespace Template

def word : Template → String
  | basic => "basic"
  | withOptions => "with-options"

def ofWord? (word : String) : Option Template :=
  if word = "basic" then some basic
  else if word = "with-options" then some withOptions
  else none

@[simp] theorem ofWord?_word (template : Template) : ofWord? template.word = some template := by
  cases template <;> decide

end Template

structure Settings where
  /-- The full path of the marker attribute. -/
  marker : String
  /-- The type that jobs are registered with. -/
  registry : String
  /-- The trait that every registered type must implement. -/
  jobTrait : String
  /-- The method called for the basic template. -/
  method : String
  /-- The method called for the template with options. -/
  methodWithOptions : String
  template : Template
  /-- The file name of the generated unit. -/
  output : String
deriving DecidableEq, Repr

/-- One layer of settings. -/
structure Overrides where
  marker : Option String := none
  registry : Option String := none
  jobTrait : Option String := none
  method : Option String := none
  methodWithOptions : Option String := none
  template : Option Template := none
  output : Option String := none
deriving DecidableEq, Repr

namespace Settings

def default : Settings where
  marker := "jobkit::recurring_job"
  registry := "::jobkit::RecurringJobs"
  jobTrait := "::jobkit::RecurringJob"
  method := "add_or_update"
  methodWithOptions := "add_or_update_with"
  template := .basic
  output := "recurring_job_registration.g.rs"

/-- The settings with a layer put on top. -/
def apply (settings : Settings) (layer : Overrides) : Settings where
  marker := layer.marker.getD settings.marker
  registry := layer.registry.getD settings.registry
  jobTrait := layer.jobTrait.getD settings.jobTrait
  method := layer.method.getD settings.method
  methodWithOptions := layer.methodWithOptions.getD settings.methodWithOptions
  template := layer.template.getD settings.template
  output := layer.output.getD settings.output

/-- The last segment of the marker, by which attributes are sorted out first. -/
def markerShortName (settings : Settings) : String :=
  Text.trim (Text.lastSegment settings.marker)

@[simp] theorem apply_empty (settings : Settings) : settings.apply {} = settings := rfl

end Settings

end JobRoster
