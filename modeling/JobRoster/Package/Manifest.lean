import JobRoster.Job.Failure
import JobRoster.Toml.Decode
import JobRoster.Toml.Document

/-!
# Manifests

What a package's manifest says: the name of its crate, the root file, the crates it depends on and
the settings for generation.
-/

namespace JobRoster

open Files Toml

/-! ## Settings -/

namespace Overrides

def keys : List String :=
  ["marker", "registry", "job-trait", "method", "method-with-options", "template", "output"]

/-- A layer of settings from the fields of a record. -/
def ofFields? (entries : Entries) : Option Overrides := do
  let text (key : String) := Entries.optional? entries key Value.text?
  return {
    marker := ← text "marker"
    registry := ← text "registry"
    jobTrait := ← text "job-trait"
    method := ← text "method"
    methodWithOptions := ← text "method-with-options"
    template := ← Entries.optional? entries "template" (Value.word? Template.ofWord?)
    output := ← text "output" }

/-- A layer of settings in a value. No other settings are allowed. -/
def ofValue? (value : Value) : Option Overrides := do
  let entries ← value.fields? keys 0
  if entries.all fun entry => keys.contains entry.1 then ofFields? entries else none

/-- The layer of settings that a configuration text holds. -/
def parse? (text : String) : Option Overrides := do
  ofValue? (.table .headed (← Toml.parse? text))

end Overrides

/-! ## Manifests -/

/-- A package section: the package's name and the settings in its metadata. -/
structure PackageSection where
  name : String
  layer : Overrides
deriving DecidableEq, Repr

/-- A library section: the name and the root file of the crate, where they are not the usual
    ones. -/
structure LibrarySection where
  name : Option String
  root : Option String
deriving DecidableEq, Repr

structure Manifest where
  package : Option PackageSection
  library : LibrarySection
  /-- The names of the packages that the crate depends on, on any platform. -/
  dependencies : List String
deriving DecidableEq, Repr

namespace Manifest

/-- The settings in the metadata of a package. -/
def metadataLayer? (value : Value) : Option Overrides := do
  let entries ← value.fields? ["jobgen"] 0
  return (← Entries.optional? entries "jobgen" Overrides.ofValue?).getD {}

def packageSection? (value : Value) : Option PackageSection := do
  let entries ← value.fields? ["name", "metadata"] 1
  let name ← Entries.required? entries "name" Value.text?
  let layer ← Entries.optional? entries "metadata" metadataLayer?
  return ⟨name, layer.getD {}⟩

def librarySection? (value : Value) : Option LibrarySection := do
  let entries ← value.fields? ["name", "path"] 2
  return ⟨← Entries.optional? entries "name" Value.text?,
    ← Entries.optional? entries "path" Value.text?⟩

/-- The names in a table of dependencies. -/
def dependencyNames? (value : Value) : Option (List String) :=
  value.entries?.map (·.map (·.1))

/-- The names of the dependencies on one platform. -/
def platformNames? (value : Value) : Option (List String) := do
  let entries ← value.fields? ["dependencies"] 0
  return (← Entries.optional? entries "dependencies" dependencyNames?).getD []

/-- The names of the dependencies on all platforms. -/
def targetNames? (value : Value) : Option (List String) := do
  return (← (← value.entries?).mapM fun entry => platformNames? entry.2).flatten

def ofEntries? (entries : Entries) : Option Manifest := do
  let package ← Entries.optional? entries "package" packageSection?
  let library ← Entries.optional? entries "lib" librarySection?
  let names ← Entries.optional? entries "dependencies" dependencyNames?
  let more ← Entries.optional? entries "target" targetNames?
  return ⟨package, library.getD ⟨none, none⟩, names.getD [] ++ more.getD []⟩

/-- The manifest that a configuration text holds. -/
def parse? (text : String) : Option Manifest := do
  ofEntries? (← Toml.parse? text)

end Manifest

end JobRoster
