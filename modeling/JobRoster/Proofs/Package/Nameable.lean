import JobRoster.Proofs.Crate.Reference
import JobRoster.Proofs.Job.Extraction
import JobRoster.Proofs.Package.Registration

/-!
# Types that the root can name

A chain of steps leads from the root to a type: into modules that can be seen, and along imports
that export a module or the type again. A type has a reference path exactly when such a chain
exports nothing but the type, once and as its last step. Chains that export more than once lead to
types that the root can name as well, and that are reported as out of its reach.
-/

namespace JobRoster.Crate

open Files Text

variable {c : Crate} {decl : Decl}

/-! ## Chains from the root -/

/-- How often something may be exported again on the way to a type. -/
inductive Exports where
  /-- The type alone, as the last step; by a glob only from the module that declares it. -/
  | once
  /-- Modules on the way, and the type any number of times. -/
  | repeatedly
deriving DecidableEq, Repr

/-- The modules that the root can name: itself, those in a module it can name that can be seen, and
    those that such a module exports again. -/
inductive NamesModule (c : Crate) (exports : Exports) : Nat → Prop where
  | root : NamesModule c exports 0
  | enter {parent index : Nat} {m : Module} (h : NamesModule c exports parent)
      (hm : c.modules[index]? = some m) (hparent : m.parent = some parent)
      (hvisible : m.scope.visibleFromRoot = true) : NamesModule c exports index
  | again {module target : Nat} {binding : Binding} (hexports : exports = .repeatedly)
      (h : NamesModule c exports module) (hbinding : binding ∈ (c.module module).bindings)
      (hvisible : binding.scope.visibleFromRoot = true) (htarget : target < c.modules.length)
      (hdenotes : resolvePath c module (ItemPath.ofName binding.name) =
        some (c.canonicalIn (c.module target).path [])) : NamesModule c exports target

/-- A module offers a declaration under a name: it declares it, gives it the name by a binding that
    can be seen, or has no such name itself and a glob that can be seen, of a module that offers the
    declaration under its own name. -/
inductive Offers (c : Crate) (exports : Exports) (decl : Decl) : Nat → String → Prop where
  | declared : Offers c exports decl decl.module decl.name
  | bound {module : Nat} {binding : Binding} (hbinding : binding ∈ (c.module module).bindings)
      (hvisible : binding.scope.visibleFromRoot = true)
      (hdenotes : resolvePath c module (ItemPath.ofName binding.name) = some decl.identity) :
      Offers c exports decl module binding.name
  | globbed {module target : Nat} {glob : Glob}
      (hexports : exports = .repeatedly ∨ target = decl.module)
      (hundeclared : (c.module module).declares decl.name = false)
      (hunbound : (c.module module).binds decl.name = false)
      (hglob : glob ∈ (c.module module).globs) (hvisible : glob.scope.visibleFromRoot = true)
      (hdenotes : resolvePath c module glob.target = some (c.canonicalIn (c.module target).path []))
      (h : Offers c exports decl target decl.name) : Offers c exports decl module decl.name

/-- The root can name a declaration: a module that it can name offers it, and it is not hidden
    there. -/
def CanBeNamed (c : Crate) (exports : Exports) (decl : Decl) : Prop :=
  decl.scope.visibleFromRoot = true ∧
    ∃ module name, NamesModule c exports module ∧ Offers c exports decl module name

theorem NamesModule.repeatedly {index : Nat} (h : NamesModule c .once index) :
    NamesModule c .repeatedly index := by
  induction h with
  | root => exact .root
  | enter _ hm hparent hvisible ih => exact .enter ih hm hparent hvisible
  | again hexports => cases hexports

theorem Offers.repeatedly {module : Nat} {name : String} (h : Offers c .once decl module name) :
    Offers c .repeatedly decl module name := by
  induction h with
  | declared => exact .declared
  | bound hbinding hvisible hdenotes => exact .bound hbinding hvisible hdenotes
  | globbed _ hundeclared hunbound hglob hvisible hdenotes _ ih =>
    exact .globbed (.inl rfl) hundeclared hunbound hglob hvisible hdenotes ih

/-- A chain that exports once is one that may export repeatedly. -/
theorem CanBeNamed.repeatedly (h : c.CanBeNamed .once decl) : c.CanBeNamed .repeatedly decl := by
  obtain ⟨hvisible, module, name, hmodule, hoffers⟩ := h
  exact ⟨hvisible, module, name, hmodule.repeatedly, hoffers.repeatedly⟩

/-! ## What is looked for -/

theorem offers_once_iff {module : Nat} {name : String} :
    Offers c .once decl module name ↔ OffersDirectly c decl module name := by
  constructor
  · intro h
    cases h with
    | declared => exact .declared
    | bound hbinding hvisible hdenotes =>
      exact .bound (mem_boundNames_iff.2 ⟨_, hbinding, hvisible, rfl, hdenotes⟩)
    | globbed hexports hundeclared hunbound hglob hvisible hdenotes =>
      obtain rfl := hexports.resolve_left (by decide)
      exact .globbed (isGlobExported_iff.2
        ⟨hundeclared, hunbound, _, hglob, hvisible, hdenotes⟩)
  · intro h
    cases h with
    | declared => exact .declared
    | bound h =>
      obtain ⟨binding, hbinding, hvisible, rfl, hdenotes⟩ := mem_boundNames_iff.1 h
      exact .bound hbinding hvisible hdenotes
    | globbed h =>
      obtain ⟨hundeclared, hunbound, glob, hglob, hvisible, hdenotes⟩ := isGlobExported_iff.1 h
      exact .globbed (.inr rfl) hundeclared hunbound hglob hvisible hdenotes .declared

theorem isReachable_root
    (hroot : ∃ m, c.modules[0]? = some m ∧ m.parent = none ∧ m.scope = .crate) :
    isReachable c 0 = true := by
  obtain ⟨m, hm, hparent, hscope⟩ := hroot
  simp [isReachable, ancestry, ancestryWithin, hm, hparent, module_of_getElem? hm, hscope,
    Scope.visibleFromRoot]

section Tree

variable (htree : ModuleTree c.modules)
  (hroot : ∃ m, c.modules[0]? = some m ∧ m.parent = none ∧ m.scope = .crate)
include htree hroot

theorem isReachable_of_parent {index parent : Nat} {m : Module} (hm : c.modules[index]? = some m)
    (hparent : m.parent = some parent) :
    isReachable c index = (m.scope.visibleFromRoot && isReachable c parent) := by
  rw [isReachable, ancestry_of_parent htree hroot hm hparent, List.all_cons, module_of_getElem? hm,
    ← isReachable]

/-- The modules that the root can name without exports are those that it reaches. -/
theorem namesModule_once_iff {index : Nat} :
    NamesModule c .once index ↔ index < c.modules.length ∧ isReachable c index = true := by
  constructor
  · intro h
    induction h with
    | root =>
      obtain ⟨m, hm, -⟩ := id hroot
      exact ⟨(List.getElem?_eq_some_iff.1 hm).1, isReachable_root hroot⟩
    | enter _ hm hparent hvisible ih =>
      refine ⟨(List.getElem?_eq_some_iff.1 hm).1, ?_⟩
      rw [isReachable_of_parent htree hroot hm hparent, hvisible, ih.2, Bool.and_true]
    | again hexports => cases hexports
  · rintro ⟨hlt, hreachable⟩
    -- a module comes after the one around it
    induction index using Nat.strongRecOn with
    | ind index ih =>
      by_cases hindex : index = 0
      · rw [hindex]
        exact .root
      · obtain ⟨m, hm⟩ : ∃ m, c.modules[index]? = some m := ⟨_, List.getElem?_eq_getElem hlt⟩
        obtain ⟨parent, p, name, hup, hp, hparent, -⟩ := htree.below index m hm hindex
        rw [isReachable_of_parent htree hroot hm hparent, Bool.and_eq_true] at hreachable
        exact .enter (ih parent hup (Nat.lt_trans hup hlt) hreachable.2) hm hparent hreachable.1

end Tree

/-- A type has a reference path exactly when a chain from the root leads to it that exports once at
    most; the root can then name it indeed, and extraction does not report it as out of reach. -/
theorem isSome_referencePath?_iff_canBeNamed {sources : Sources} {name : String}
    {dependencies : List String} {root : FilePath}
    (hload : load sources name dependencies root = .ok c) (hdecl : decl ∈ c.decls) :
    ((referencePath? c decl).isSome = true ↔ c.CanBeNamed .once decl) ∧
    ((referencePath? c decl).isSome = true → c.CanBeNamed .repeatedly decl) ∧
    ∀ (settings : Settings) (diagnostic : Diagnostic), c.CanBeNamed .once decl →
      c.extraction settings decl = .error diagnostic → diagnostic.fault ≠ .unreachable := by
  have htree : ModuleTree c.modules := moduleTree_of_load hload
  have hroot := exists_root_of_load hload
  have hplaced : decl.Placed c.name c.modules := placed_decls_of_load hload decl hdecl
  have hiff : (referencePath? c decl).isSome = true ↔ c.CanBeNamed .once decl := by
    simp only [isSome_referencePath?_iff hplaced, CanBeNamed, namesModule_once_iff htree hroot,
      offers_once_iff, and_assoc]
  refine ⟨hiff, fun h => (hiff.1 h).repeatedly, fun settings diagnostic hnamed herror hfault => ?_⟩
  have hnone : referencePath? c decl = none := typePath?_eq_none_of_unreachable herror hfault
  have hsome := hiff.2 hnamed
  rw [hnone] at hsome
  cases hsome

/-- A glob in a module that the root reaches, of the module that declares the type. -/
theorem isSome_referencePath?_of_glob :
    ∃ c, load (.ofTexts [(⟨"lib.rs"⟩, "mod m;"), (⟨"m.rs"⟩, "mod a; pub use a::*;"),
        (⟨"m/a.rs"⟩, "#[jobkit::recurring_job(\"* * * * *\")] pub struct N;")])
        "app" ["jobkit"] ⟨"lib.rs"⟩ = .ok c ∧
      ∃ decl ∈ c.decls, isReachable c decl.module = false ∧ c.CanBeNamed .once decl ∧
        (referencePath? c decl).isSome = true := by
  refine exists_loaded_of_any (fun c => (c.modules[1]?.map fun m => (m.parent, m.scope)) =
        some (some 0, .crate) ∧
      ∃ decl ∈ c.decls, isReachable c decl.module = false ∧ decl.scope.visibleFromRoot = true ∧
        isGlobExported c decl 1 = true)
    (by decide +kernel) fun c hload htest => ?_
  obtain ⟨hm, decl, hdecl, hprivate, hvisible, hglob⟩ := of_decide_eq_true htest
  obtain ⟨m, hm, hentered⟩ := Option.map_eq_some_iff.1 hm
  obtain ⟨hparent, hscope⟩ := Prod.mk.inj hentered
  have hmodule : NamesModule c .once 1 := .enter .root hm hparent (by rw [hscope]; rfl)
  have hnamed : c.CanBeNamed .once decl :=
    ⟨hvisible, 1, decl.name, hmodule, offers_once_iff.2 (.globbed hglob)⟩
  exact ⟨decl, hdecl, hprivate, hnamed,
    (isSome_referencePath?_iff_canBeNamed hload hdecl).1.2 hnamed⟩

/-- A glob of a module that has the type through a glob of its own: the root can name the type, and
    it is reported as out of reach. -/
theorem isSome_referencePath?_ne_of_globs :
    ∃ c, load (.ofTexts [(⟨"lib.rs"⟩, "mod m;"), (⟨"m.rs"⟩, "mod a; pub use a::*;"),
        (⟨"m/a.rs"⟩, "mod b; pub use b::*;"),
        (⟨"m/a/b.rs"⟩, "#[jobkit::recurring_job(\"* * * * *\")] pub struct N;")])
        "app" ["jobkit"] ⟨"lib.rs"⟩ = .ok c ∧
      ∃ decl ∈ c.decls, c.CanBeNamed .repeatedly decl ∧ referencePath? c decl = none ∧
        (Extracted.diagnostic? (c.extraction Settings.default decl)).map (·.fault) =
          some .unreachable := by
  refine exists_loaded_of_any (fun c => (c.modules[1]?.map fun m => (m.parent, m.scope)) =
        some (some 0, .crate) ∧
      ∃ decl ∈ c.decls, decl.module = 3 ∧ decl.scope.visibleFromRoot = true ∧
        ((c.module 2).declares decl.name = false ∧ (c.module 2).binds decl.name = false ∧
          ∃ glob ∈ (c.module 2).globs, glob.scope.visibleFromRoot = true ∧
            resolvePath c 2 glob.target = some (c.canonicalIn (c.module 3).path [])) ∧
        ((c.module 1).declares decl.name = false ∧ (c.module 1).binds decl.name = false ∧
          ∃ glob ∈ (c.module 1).globs, glob.scope.visibleFromRoot = true ∧
            resolvePath c 1 glob.target = some (c.canonicalIn (c.module 2).path [])) ∧
        referencePath? c decl = none ∧
        (Extracted.diagnostic? (c.extraction Settings.default decl)).map (·.fault) =
          some .unreachable)
    (by decide +kernel) fun c hload htest => ?_
  obtain ⟨hm, decl, hdecl, hmodule, hvisible, hinner, houter, hnone, hfault⟩ :=
    of_decide_eq_true htest
  obtain ⟨m, hm, hentered⟩ := Option.map_eq_some_iff.1 hm
  obtain ⟨hparent, hscope⟩ := Prod.mk.inj hentered
  have hnames : NamesModule c .repeatedly 1 := .enter .root hm hparent (by rw [hscope]; rfl)
  have hdeclared : Offers c .repeatedly decl 3 decl.name := hmodule ▸ .declared
  obtain ⟨hundeclared, hunbound, glob, hglob, hseen, hdenotes⟩ := hinner
  have hinner : Offers c .repeatedly decl 2 decl.name :=
    .globbed (.inl rfl) hundeclared hunbound hglob hseen hdenotes hdeclared
  obtain ⟨hundeclared, hunbound, glob, hglob, hseen, hdenotes⟩ := houter
  have houter : Offers c .repeatedly decl 1 decl.name :=
    .globbed (.inl rfl) hundeclared hunbound hglob hseen hdenotes hinner
  exact ⟨decl, hdecl, ⟨hvisible, 1, decl.name, hnames, houter⟩, hnone, hfault⟩

end JobRoster.Crate
