import JobRoster.Crate.Resolution

/-!
# References from the root

The path by which the root of a crate can name a declaration. A type behind a private module has one
only if an import that the root can see exports it again.
-/

namespace JobRoster.Crate

/-- Whether a module and all modules around it can be named from the root. -/
def isReachable (c : Crate) (module : Nat) : Bool :=
  (ancestry c.modules module).all fun index => (c.module index).scope.visibleFromRoot

/-- The names under which bindings of a module that the root can see export a declaration. -/
def boundNames (c : Crate) (decl : Decl) (module : Nat) : List String :=
  (((c.module module).bindings.filter (·.scope.visibleFromRoot)).map (·.name)).filter fun name =>
    resolvePath c module (ItemPath.ofName name) = some decl.identity

/-- Whether a glob import of a module that the root can see exports a declaration under its name. -/
def isGlobExported (c : Crate) (decl : Decl) (module : Nat) : Bool :=
  let m := c.module module
  let declaredIn := c.canonicalIn (c.module decl.module).path []
  !m.declares decl.name && !m.binds decl.name &&
    (m.globs.filter (·.scope.visibleFromRoot)).any fun glob =>
      resolvePath c module glob.target = some declaredIn

/-- A path by its number of segments below the crate's name, and its text. -/
structure Candidate where
  length : Nat
  text : String
deriving DecidableEq, Repr

namespace Candidate

/-- Shorter paths come first, then the lesser text. -/
def compare (a b : Candidate) : Ordering :=
  (Ord.compare a.length b.length).then (Ord.compare a.text b.text)

/-- The first of some candidates. -/
def least? : List Candidate → Option Candidate
  | [] => none
  | candidate :: candidates =>
    match least? candidates with
    | none => some candidate
    | some best => if best.compare candidate = .lt then some best else some candidate

end Candidate

/-- The paths by which a declaration is exported from a module that the root can reach. -/
def exportsFrom (c : Crate) (decl : Decl) (module : Nat) : List Candidate :=
  if isReachable c module then
    let names := boundNames c decl module ++
      if isGlobExported c decl module then [decl.name] else []
    let path := (c.module module).path
    names.map fun name => ⟨path.length + 1, c.canonicalIn path [name]⟩
  else []

/-- The path by which the root names a declaration: the declared one if it is visible, else the
    first of those under which it is exported. -/
def referencePath? (c : Crate) (decl : Decl) : Option String :=
  if !decl.scope.visibleFromRoot then none
  else if isReachable c decl.module then some decl.identity
  else
    (Candidate.least? ((List.range c.modules.length).flatMap (exportsFrom c decl))).map (·.text)

end JobRoster.Crate
