import JobRoster.Crate.Model

/-!
# Scopes

The module that a visibility names. A restricted visibility is written relative to the module it
stands in, and can only name that module or one around it.
-/

namespace JobRoster.Crate

open Syntax (Visibility)

namespace Scope

/-- The first of the modules `around` that has the path `target`. -/
def enclosing? (modules : List Module) (around : List Nat) (target : List String) : Option Nat :=
  around.find? fun index => modules[index]?.any (·.path = target)

def parent? (modules : List Module) (index : Nat) : Option Nat :=
  modules[index]?.bind (·.parent)

/-- The module that the segments after the first one lead to from `current`: words `super` go up,
    and names then have to spell the path of a module around `module`. -/
def follow? (modules : List Module) (module : Nat) : (current : Nat) → List String → Option Nat
  | current, [] => some current
  | current, segment :: segments =>
    if segment = "super" then
      match parent? modules current with
      | some up => follow? modules module up segments
      | none => none
    else
      match modules[current]? with
      | some start =>
        enclosing? modules (ancestry modules module) (start.path ++ segment :: segments)
      | none => none

/-- The module that a restriction written in `module` names. -/
def restricted? (modules : List Module) (module : Nat) : List String → Option Nat
  | "crate" :: segments => follow? modules module 0 segments
  | "self" :: segments => follow? modules module module segments
  | "super" :: segments =>
    match parent? modules module with
    | some up => follow? modules module up segments
    | none => none
  | _ => none

/-- What is visible in a module is visible in the whole crate if the module is the root. -/
def ofModule (module : Nat) : Scope :=
  if module = 0 then .crate else .within module

/-- The scope of an item with a visibility, declared in `module`. A restriction that names no module
    around it is taken as private. -/
def ofVisibility (modules : List Module) (module : Nat) : Visibility → Scope
  | .visible => .crate
  | .inherited => ofModule module
  | .restricted path =>
    match restricted? modules module (ItemPath.ofSyntax path).segments with
    | some named => ofModule named
    | none => .within module

end Scope

end JobRoster.Crate
