import JobRoster.Crate.Constant

/-!
# Crates

A crate as a tree of modules with the declarations, constants and imports they hold. Modules are
known by their place in the list of modules; the first is the root. Items are known by their
canonical path: the crate's name, the modules' names and the item's name, joined.
-/

namespace JobRoster.Crate

open Files

/-- Where an item can be named from. -/
inductive Scope where
  /-- Anywhere in the crate. -/
  | crate
  /-- The module and what is inside it. -/
  | within (module : Nat)
deriving DecidableEq, Repr

def Scope.visibleFromRoot (scope : Scope) : Bool :=
  scope = .crate

/-- A name that an import gives to what its target denotes. -/
structure Binding where
  name : String
  target : ItemPath
  scope : Scope
deriving DecidableEq, Repr

/-- An import of all that is in its target. -/
structure Glob where
  target : ItemPath
  scope : Scope
deriving DecidableEq, Repr

structure Module where
  /-- The names of the modules from below the root down to this one. -/
  path : List String
  /-- The module that encloses this one; the root has none. -/
  parent : Option Nat
  scope : Scope
  bindings : List Binding
  globs : List Glob
  /-- The names of the items declared in the module itself. -/
  names : List String
deriving DecidableEq, Repr

namespace Module

/-- A module before anything in it is read. -/
def new (path : List String) (parent : Option Nat) (scope : Scope) : Module :=
  ⟨path, parent, scope, [], [], []⟩

def declares (m : Module) (name : String) : Bool :=
  m.names.contains name

def binds (m : Module) (name : String) : Bool :=
  m.bindings.any (·.name = name)

end Module

/-- An attribute of a declaration. Arguments that cannot be read are the reason why. -/
structure Attribute where
  path : ItemPath
  arguments : Except String (List (Argument ConstExpr))

def Attribute.shortName (attr : Attribute) : String :=
  attr.path.last?.getD ""

/-- The declaration of a type. -/
structure Decl where
  module : Nat
  name : String
  identity : String
  kind : TypeKind
  generics : Nat
  scope : Scope
  attributes : List Attribute
  location : Location

structure ConstItem where
  module : Nat
  identity : String
  value : ConstExpr

end Crate

/-- A crate, read and ready to be asked. -/
structure Crate where
  name : String
  /-- The crates that may start a path, sorted. -/
  externs : List String
  /-- The crates whose macros need no path. -/
  macroCrates : List String
  modules : List Crate.Module
  decls : List Crate.Decl
  consts : List Crate.ConstItem
  /-- The files that were read, in order. -/
  files : List Files.FilePath

namespace Crate

/-- The canonical path of an item below a module. -/
def canonical (crateName : String) (module segments : List String) : String :=
  Text.joinSegments (crateName :: module ++ segments)

/-- The canonical path of what has the given segments below a module of this crate. -/
def canonicalIn (c : Crate) (module segments : List String) : String :=
  canonical c.name module segments

def isExtern (c : Crate) (name : String) : Bool :=
  c.externs.contains name

/-- The module of an index; an empty one if there is none. -/
def module (c : Crate) (index : Nat) : Module :=
  c.modules.getD index (Module.new [] none .crate)

/-- The last index whose element satisfies `p`. -/
def lastIndex? {α : Type} (p : α → Bool) : List α → Option Nat
  | [] => none
  | x :: xs =>
    match lastIndex? p xs with
    | some index => some (index + 1)
    | none => if p x then some 0 else none

/-- The module of a canonical path, the last one if several have it. -/
def moduleNamed? (c : Crate) (path : String) : Option Nat :=
  lastIndex? (fun m => c.canonicalIn m.path [] = path) c.modules

/-- The constant of a canonical path, the last one if several have it. -/
def constNamed? (c : Crate) (path : String) : Option ConstItem :=
  c.consts.reverse.find? (·.identity = path)

/-- The indices of a module and of the modules around it, the innermost first. `steps` is how many
    at most. -/
def ancestryWithin (modules : List Module) : (steps : Nat) → Nat → List Nat
  | 0, _ => []
  | steps + 1, index =>
    index ::
      match modules[index]?.bind (·.parent) with
      | some parent => ancestryWithin modules steps parent
      | none => []

/-- The indices of a module and of the modules around it, the innermost first. There are no more
    than modules. -/
def ancestry (modules : List Module) (index : Nat) : List Nat :=
  ancestryWithin modules (modules.length + 1) index

end Crate

end JobRoster
