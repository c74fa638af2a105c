import JobRoster.Crate.ItemPath

/-!
# Imports

A tree of imports flattened to its leaves. Each leaf gives a name to a path, or imports all that is
in one.
-/

namespace JobRoster.Crate

open Syntax (UseTree)

inductive Import where
  | binding (name : String) (target : ItemPath)
  | glob (target : ItemPath)
deriving DecidableEq, Repr

namespace Import

/-- A leaf `ident` below a path. The word `self` stands for the path itself, and imports nothing
    where there is no path. -/
def ofName (base : ItemPath) (ident : String) : List Import :=
  if ident = "self" then
    match base.last? with
    | some name => [binding name base]
    | none => []
  else [binding ident (base.push ident)]

/-- A leaf with a name of its own. An underscore is no name. -/
def ofRename (base : ItemPath) (ident newName : String) : List Import :=
  if newName = "_" then []
  else [binding newName (if ident = "self" then base else base.push ident)]

mutual

/-- What a tree below a path imports, in order. -/
def ofTree (base : ItemPath) : UseTree → List Import
  | .path ident tree => ofTree (base.push ident.name) tree
  | .name ident => ofName base ident.name
  | .rename ident newName => ofRename base ident.name newName.name
  | .glob => [glob base]
  | .group trees => ofTrees base trees

def ofTrees (base : ItemPath) : List UseTree → List Import
  | [] => []
  | tree :: trees => ofTree base tree ++ ofTrees base trees

end

end Import

end JobRoster.Crate
