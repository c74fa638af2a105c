import JobRoster.Crate.Model

/-!
# Resolution

What a path written in a module denotes, as a canonical path. A path starts from a keyword, from a
name that the module imports or declares, from another crate, or from a name that some glob import
brings in; imports met on the way through the crate are followed to what they name.

Imports may be circular. Two things end the search: every import followed costs one unit of a
budget, and a glob look-up that is asked for while it is still going on finds nothing. The answers
to glob look-ups are remembered while one path is resolved.
-/

namespace JobRoster.Crate

open Text

/-! ## Questions and what is remembered -/

/-- A binding by its module and its place among the module's bindings. -/
structure BindingSite where
  module : Nat
  index : Nat
deriving DecidableEq, Repr

/-- What a search asks on its way. -/
inductive Question where
  /-- What a path written in a module denotes, if one binding is left out. -/
  | path (module : Nat) (path : ItemPath) (without : Option BindingSite)
  /-- What a canonical path comes to once the imports along it are followed. -/
  | reexports (path : String)
  /-- What a name denotes through the glob imports of a module. -/
  | glob (module : Nat) (name : String)
deriving DecidableEq, Repr

/-- A glob look-up. -/
structure Lookup where
  module : Nat
  name : String
deriving DecidableEq, Repr

/-- The look-ups begun so far, the last one first. One that still goes on has no answer, like one
    that found nothing. -/
structure Memo where
  entries : List (Lookup × Option String)
deriving Repr

namespace Memo

def empty : Memo := ⟨[]⟩

/-- What is remembered of a look-up, if it has begun. -/
def find? (memo : Memo) (lookup : Lookup) : Option (Option String) :=
  (memo.entries.find? (·.1 = lookup)).map (·.2)

/-- The memo with a look-up that begins. -/
def start (memo : Memo) (lookup : Lookup) : Memo :=
  ⟨(lookup, none) :: memo.entries⟩

/-- The memo with the answer to a look-up that has begun. -/
def finish (memo : Memo) (lookup : Lookup) (answer : Option String) : Memo :=
  ⟨memo.entries.map fun entry => if entry.1 = lookup then (lookup, answer) else entry⟩

end Memo

/-- How a search notes that a look-up begins, and what it ends with. -/
structure Noting where
  start : Memo → Lookup → Memo
  finish : Memo → Lookup → Option String → Memo

/-- Every look-up has one place in the memo. -/
def Noting.memo : Noting where
  start := Memo.start
  finish := Memo.finish

/-- A search: an answer, or none, and what is remembered after it. -/
abbrev Search := StateM Memo (Option String)

/-- Answers the questions that a search step leaves open. -/
abbrev Ask := Question → Search

/-- Looks names up through the glob imports of modules. -/
abbrev GlobSearch := (module : Nat) → (name : String) → Search

/-- The canonical path with further segments. -/
def extend (path : String) (segments : List String) : String :=
  joinSegments (path :: segments)

/-! ## Imports along a path -/

/-- A binding of a module with its place. -/
structure BindingHit where
  site : BindingSite
  target : ItemPath
deriving DecidableEq, Repr

/-- The first binding of a name in a module, one binding left out. -/
def bindingOf? (c : Crate) (module : Nat) (name : String) (without : Option BindingSite) :
    Option BindingHit :=
  ((c.module module).bindings.zipIdx.find? fun (binding, index) =>
    binding.name = name && without ≠ some ⟨module, index⟩).map
      fun (binding, index) => ⟨⟨module, index⟩, binding.target⟩

/-- Where a walk from a module along segments meets a binding first: the binding, and the segments
    after it. -/
def reexportAlong? (c : Crate) : (module : Nat) → List String → Option (BindingHit × List String)
  | _, [] => none
  | module, segment :: segments =>
    match bindingOf? c module segment none with
    | some hit => some (hit, segments)
    | none =>
      match c.moduleNamed? (c.canonicalIn ((c.module module).path ++ [segment]) []) with
      | some next => reexportAlong? c next segments
      | none => none

/-- The segments of a canonical path below the root of the crate, if it is in the crate. -/
def localSegments? (c : Crate) (path : String) : Option (List String) :=
  (dropLead? (c.name ++ "::") path).map splitSegments

/-- Follows the imports along a canonical path. -/
def followReexports (c : Crate) (ask : Ask) (path : String) : Search := do
  match (localSegments? c path).bind (reexportAlong? c 0) with
  | none => return some path
  | some (hit, rest) =>
    match ← ask (.path hit.site.module hit.target (some hit.site)) with
    | none => return none
    | some target => ask (.reexports (extend target rest))

/-! ## Glob imports -/

/-- A name in the one crate that globs lead to. If there are several, it could be in any. -/
def soleExternal? (name : String) : (external : List String) → Option String
  | [crate] => some (extend crate [name])
  | _ => none

/-- The paths out of the crate that globs lead to, with one more if it is such a path. -/
def noteExternal (c : Crate) (external : List String) (base : String) : List String :=
  if (dropLead? (c.name ++ "::") base).isSome then external else external ++ [base]

/-- What a name denotes in the module `target` that a glob of `module` leads to by the path
    `base`. -/
def searchGlob (c : Crate) (ask : Ask) (module : Nat) (name base : String) (target : Nat) :
    Search :=
  if (c.module target).declares name || (c.module target).binds name then
    return some (extend base [name])
  else if target = module then return none
  else ask (.glob target name)

/-- Searches glob imports in order for a name. The first that is a module with the name wins. If
    none is, and one alone leads to another crate, the name is taken to be there. -/
def searchGlobs (c : Crate) (ask : Ask) (module : Nat) (name : String) :
    (external : List String) → List Glob → Search
  | external, [] => return soleExternal? name external
  | external, glob :: globs => do
    match ← ask (.path module glob.target none) with
    | none => searchGlobs c ask module name external globs
    | some base =>
      match c.moduleNamed? base with
      | some target =>
        match ← searchGlob c ask module name base target with
        | some found => return some found
        | none => searchGlobs c ask module name external globs
      | none => searchGlobs c ask module name (noteExternal c external base) globs

/-- Looks a name up through the glob imports of a module, unless that has begun before. -/
def lookupNoting (noting : Noting) (c : Crate) (ask : Ask) (module : Nat) (name : String) :
    Search := do
  let lookup : Lookup := ⟨module, name⟩
  match (← get).find? lookup with
  | some known => return known
  | none =>
    modify (noting.start · lookup)
    let found ← searchGlobs c ask module name [] (c.module module).globs
    modify (noting.finish · lookup found)
    return found

/-- Looks a name up through the glob imports of a module. -/
def globLookup (c : Crate) (ask : Ask) : GlobSearch :=
  lookupNoting .memo c ask

/-! ## Paths -/

/-- What a path that starts with a name, not with a keyword, denotes in a module. -/
def resolveRelative (c : Crate) (ask : Ask) (throughGlobs : GlobSearch) (module : Nat)
    (first : String) (rest : List String) (without : Option BindingSite) : Search := do
  match bindingOf? c module first without with
  | some hit =>
    return (← ask (.path hit.site.module hit.target (some hit.site))).map (extend · rest)
  | none =>
    if (c.module module).declares first then
      return some (c.canonicalIn (c.module module).path (first :: rest))
    else if c.isExtern first then return some (extend first rest)
    else
      match ← throughGlobs module first with
      | some found => return some (extend found rest)
      | none =>
        match rest, c.macroCrates with
        | [], [crate] => return some (extend crate [first])
        | _, _ => return none

/-- The module that words `super` lead up to from `module`, and the segments after them. -/
def climb? (c : Crate) : (module : Nat) → List String → Option (Nat × List String)
  | module, "super" :: segments =>
    match (c.module module).parent with
    | some parent => climb? c parent segments
    | none => none
  | module, segments => some (module, segments)

/-- What a path denotes before the imports along it are followed. -/
def resolveWritten (c : Crate) (ask : Ask) (throughGlobs : GlobSearch) (module : Nat)
    (path : ItemPath) (without : Option BindingSite) : Search :=
  match path.segments with
  | [] => return none
  | first :: rest =>
    if path.leadingColon then
      return if c.isExtern first then some (joinSegments path.segments) else none
    else if first = "crate" then return some (c.canonicalIn [] rest)
    else if first = "self" then return some (c.canonicalIn (c.module module).path rest)
    else if first = "super" then
      return (climb? c module path.segments).map fun (up, segments) =>
        c.canonicalIn (c.module up).path segments
    else resolveRelative c ask throughGlobs module first rest without

/-- One step of a search: answers a question by way of others. -/
def answerBy (c : Crate) (ask : Ask) (throughGlobs : GlobSearch) : Ask
  | .path module path without => do
    match ← resolveWritten c ask throughGlobs module path without with
    | some canonical => followReexports c ask canonical
    | none => return none
  | .reexports path => followReexports c ask path
  | .glob module name => throughGlobs module name

/-- Answers a question in at most `budget` steps, one inside the other. -/
def answerNoting (noting : Noting) (c : Crate) : (budget : Nat) → Ask
  | 0, _ => return none
  | budget + 1, question =>
    answerBy c (answerNoting noting c budget)
      (lookupNoting noting c (answerNoting noting c budget)) question

/-- Answers a question in so many steps at most, and remembers look-ups. -/
def answer (c : Crate) (budget : Nat) : Ask :=
  answerNoting .memo c budget

/-- How many steps may be one inside the other. -/
def searchBudget : Nat := 33

/-- The canonical path of what `path` denotes in a module. -/
def resolvePath (c : Crate) (module : Nat) (path : ItemPath) : Option String :=
  (answer c searchBudget (.path module path none) Memo.empty).1

end JobRoster.Crate
