import Mathlib.Data.List.Forall2
import JobRoster.Proofs.Crate.PlainSearch

/-!
# The order of glob imports

A look-up through globs takes the first module that has the name, so where several have it the order
of the globs decides. `readings` collects what a name may come to, whichever glob is searched first.
Where its readings agree a name denotes the same in every order, however the globs form cycles.

The readings of a name need not agree although the crate declares it once: a module that imports all
of another crate is trusted to have the name, and is trusted before the globs behind it are searched.
-/

namespace JobRoster.Crate

open Files Text Search

/-! ## Crates that differ in the order of globs -/

/-- The module with its globs in some order. -/
structure Module.ReordersGlobs (m m' : Module) : Prop where
  path : m'.path = m.path
  parent : m'.parent = m.parent
  bindings : m'.bindings = m.bindings
  names : m'.names = m.names
  globs : m'.globs.Perm m.globs

instance : DecidableRel Module.ReordersGlobs := fun m m' =>
  decidable_of_iff (m'.path = m.path ∧ m'.parent = m.parent ∧ m'.bindings = m.bindings ∧
      m'.names = m.names ∧ m'.globs.Perm m.globs)
    ⟨fun ⟨path, parent, bindings, names, globs⟩ => ⟨path, parent, bindings, names, globs⟩,
      fun ⟨path, parent, bindings, names, globs⟩ => ⟨path, parent, bindings, names, globs⟩⟩

/-- The crate with the globs of each of its modules in some order. -/
structure ReordersGlobs (c c' : Crate) : Prop where
  name : c'.name = c.name
  externs : c'.externs = c.externs
  macroCrates : c'.macroCrates = c.macroCrates
  modules : List.Forall₂ Module.ReordersGlobs c.modules c'.modules

instance : DecidableRel ReordersGlobs := fun c c' =>
  decidable_of_iff (c'.name = c.name ∧ c'.externs = c.externs ∧ c'.macroCrates = c.macroCrates ∧
      List.Forall₂ Module.ReordersGlobs c.modules c'.modules)
    ⟨fun ⟨name, externs, macroCrates, modules⟩ => ⟨name, externs, macroCrates, modules⟩,
      fun ⟨name, externs, macroCrates, modules⟩ => ⟨name, externs, macroCrates, modules⟩⟩

namespace ReordersGlobs

variable {c c' : Crate}

theorem length_eq (h : ReordersGlobs c c') : c'.modules.length = c.modules.length :=
  h.modules.length_eq.symm

theorem module (h : ReordersGlobs c c') (index : Nat) :
    Module.ReordersGlobs (c.module index) (c'.module index) := by
  by_cases hlt : index < c.modules.length
  · have hlt' : index < c'.modules.length := h.length_eq ▸ hlt
    rw [module_of_getElem? (List.getElem?_eq_getElem hlt),
      module_of_getElem? (List.getElem?_eq_getElem hlt')]
    exact h.modules.get hlt hlt'
  · have hge : c.modules.length ≤ index := Nat.le_of_not_lt hlt
    rw [module_of_length_le hge, module_of_length_le (h.length_eq ▸ hge)]
    exact ⟨rfl, rfl, rfl, rfl, List.Perm.refl _⟩

theorem declares (h : ReordersGlobs c c') (index : Nat) (name : String) :
    (c'.module index).declares name = (c.module index).declares name := by
  rw [Module.declares, Module.declares, (h.module index).names]

theorem binds (h : ReordersGlobs c c') (index : Nat) (name : String) :
    (c'.module index).binds name = (c.module index).binds name := by
  rw [Module.binds, Module.binds, (h.module index).bindings]

theorem isExtern (h : ReordersGlobs c c') (name : String) : c'.isExtern name = c.isExtern name := by
  rw [Crate.isExtern, Crate.isExtern, h.externs]

theorem canonicalIn (h : ReordersGlobs c c') (module segments : List String) :
    c'.canonicalIn module segments = c.canonicalIn module segments := by
  rw [Crate.canonicalIn, Crate.canonicalIn, h.name]

theorem moduleNamed? (h : ReordersGlobs c c') (path : String) :
    c'.moduleNamed? path = c.moduleNamed? path := by
  unfold Crate.moduleNamed?
  simp only [h.canonicalIn]
  have hmodules := h.modules
  generalize c.modules = modules, c'.modules = modules' at hmodules
  induction hmodules with
  | nil => rfl
  | cons hm _ ih => rw [lastIndex?, lastIndex?, ih, hm.path]

theorem bindingOf? (h : ReordersGlobs c c') (module : Nat) (name : String)
    (without : Option BindingSite) :
    Crate.bindingOf? c' module name without = Crate.bindingOf? c module name without := by
  rw [Crate.bindingOf?, Crate.bindingOf?, (h.module module).bindings]

theorem reexportAlong? (h : ReordersGlobs c c') (module : Nat) (segments : List String) :
    Crate.reexportAlong? c' module segments = Crate.reexportAlong? c module segments := by
  induction segments generalizing module with
  | nil => rfl
  | cons segment segments ih =>
    simp only [Crate.reexportAlong?, h.bindingOf?, h.moduleNamed?, h.canonicalIn,
      (h.module module).path, ih]

theorem climb? (h : ReordersGlobs c c') (module : Nat) (segments : List String) :
    Crate.climb? c' module segments = Crate.climb? c module segments := by
  induction segments generalizing module with
  | nil => rfl
  | cons segment segments ih =>
    by_cases hsuper : segment = "super"
    · subst hsuper
      rw [Crate.climb?, Crate.climb?, (h.module module).parent]
      simp only [ih]
    · rw [climb?_of_ne_super hsuper, climb?_of_ne_super hsuper]

theorem startsInGlobs (h : ReordersGlobs c c') (module : Nat) (path : ItemPath)
    (without : Option BindingSite) :
    Crate.startsInGlobs c' module path without = Crate.startsInGlobs c module path without := by
  unfold Crate.startsInGlobs
  simp only [h.bindingOf?, h.declares, h.isExtern]

/-! ### What needs no glob -/

theorem followBy (h : ReordersGlobs c c') (reply : Reply) (path : String) :
    Crate.followBy c' reply path = Crate.followBy c reply path := by
  unfold Crate.followBy localSegments?
  simp only [h.name]
  rw [funext (h.reexportAlong? 0)]

theorem writtenBy (h : ReordersGlobs c c') (reply : Reply) (module : Nat) (path : ItemPath)
    (without : Option BindingSite) :
    Crate.writtenBy c' reply module path without = Crate.writtenBy c reply module path without := by
  have hname : ∀ first, nameBy c' reply module first without =
      nameBy c reply module first without := by
    intro first
    unfold nameBy
    simp only [h.bindingOf?, h.declares, h.isExtern, h.canonicalIn, (h.module module).path]
  unfold Crate.writtenBy startBy
  simp only [hname, h.isExtern, h.canonicalIn, h.climb?, (h.module _).path]

theorem direct (h : ReordersGlobs c c') (budget : Nat) :
    Crate.direct c' budget = Crate.direct c budget := by
  induction budget with
  | zero => rfl
  | succ budget ih =>
    funext question
    cases question with
    | path module path without =>
      rw [Crate.direct, Crate.direct, ih, h.writtenBy, funext (h.followBy _)]
    | reexports path => rw [Crate.direct, Crate.direct, ih, h.followBy]
    | glob module name => rfl

theorem afterGlobs (h : ReordersGlobs c c') (first : String) (rest : List String)
    (found : Option String) :
    Crate.afterGlobs c' first rest found = Crate.afterGlobs c first rest found := by
  unfold Crate.afterGlobs
  rw [h.macroCrates]

theorem directImports (h : ReordersGlobs c c') (hdirect : DirectImports c) : DirectImports c' := by
  intro module hlt
  obtain ⟨hbindings, hglobs⟩ := hdirect module (h.length_eq ▸ hlt)
  refine ⟨fun entry hentry => ?_, fun glob hglob => ?_⟩
  · rw [(h.module module).bindings] at hentry
    rw [h.startsInGlobs]
    exact hbindings entry hentry
  · rw [h.startsInGlobs]
    exact hglobs glob ((h.module module).globs.subset hglob)

theorem globsWithin (h : ReordersGlobs c c') {steps : Nat} (hglobs : GlobsWithin c steps) :
    GlobsWithin c' steps := by
  intro module hlt glob hglob
  rw [h.direct, h.direct]
  exact hglobs module (h.length_eq ▸ hlt) glob ((h.module module).globs.subset hglob)

theorem globReaches (h : ReordersGlobs c c') {steps module other : Nat} :
    Crate.GlobReaches c' steps module other ↔ Crate.GlobReaches c steps module other := by
  unfold Crate.GlobReaches LedTo
  simp only [h.direct, h.moduleNamed?, (h.module module).globs.mem_iff]

theorem globDepthWithin (h : ReordersGlobs c c') {steps depth : Nat}
    (hdepth : GlobDepthWithin c steps depth) : GlobDepthWithin c' steps depth := by
  intro running hchain
  apply hdepth
  refine ⟨hchain.nodup, ?_, ?_⟩
  · exact hchain.linked.imp fun inner outer => h.globReaches.1
  · intro module hrunning hnone
    apply hchain.globs module hrunning
    exact List.perm_nil.1 (hnone ▸ (h.module module).globs)

end ReordersGlobs

/-! ## What a name may come to -/

/-- What a name may come to by a glob that leads to `base`. -/
def readingsAt (c : Crate) (within : Nat → List String) (module : Nat) (name base : String) :
    List String :=
  match c.moduleNamed? base with
  | some other =>
    if (c.module other).declares name || (c.module other).binds name then [extend base [name]]
    else if other = module then []
    else within other
  | none => []

/-- Whether a path that a glob leads to is out of the crate. -/
def isOutside (c : Crate) (base : String) : Bool :=
  (c.moduleNamed? base).isNone && (dropLead? (c.name ++ "::") base).isNone

/-- What a name may come to by globs that lead to `bases`: what any of them gives it, and else the
    name in the one crate that they lead to. -/
def readingsOf (c : Crate) (within : Nat → List String) (module : Nat) (name : String)
    (bases : List String) : List String :=
  match bases.flatMap (readingsAt c within module name) with
  | [] => (soleExternal? name (bases.filter c.isOutside)).toList
  | found => found

/-- What a name may come to through the globs of a module, in whatever order they are searched,
    while look-ups of the name in the modules `running` go on. -/
def readings (c : Crate) (steps : Nat) (name : String) :
    (budget : Nat) → (running : List Nat) → (module : Nat) → List String
  | 0, _, _ => []
  | budget + 1, running, module =>
    if module ∈ running then []
    else
      readingsOf c (readings c steps name budget (module :: running)) module name
        ((c.module module).globs.filterMap fun glob =>
          direct c steps (.path module glob.target none))

/-- Whatever glob is searched first, a name comes to the same. -/
def Unambiguous (c : Crate) (steps module : Nat) (name : String) : Prop :=
  ∀ r ∈ readings c steps name searchBudget [] module,
    ∀ r' ∈ readings c steps name searchBudget [] module, r = r'

instance (c : Crate) (steps module : Nat) (name : String) :
    Decidable (Unambiguous c steps module name) := by
  unfold Unambiguous
  infer_instance

section Readings

variable {c c' : Crate}

/-- The search takes the first reading. -/
theorem seek_eq_head? {target : Glob → Option String} {within : Nat → List String} {module : Nat}
    {name : String} (globs : List Glob) (external : List String) :
    seek c target (fun other => (within other).head?) module name external globs =
      ((globs.filterMap target).flatMap (readingsAt c within module name)).head?.or
        (soleExternal? name (external ++ (globs.filterMap target).filter c.isOutside)) := by
  induction globs generalizing external with
  | nil => simp [seek]
  | cons glob globs ih =>
    rw [seek]
    cases htarget : target glob with
    | none => simpa [htarget] using ih external
    | some base =>
      simp only [List.filterMap_cons, htarget, List.flatMap_cons, List.head?_append]
      cases hbase : c.moduleNamed? base with
      | some other =>
        -- a module: its readings come before those of the globs behind it
        have hinside : c.isOutside base = false := by simp [isOutside, hbase]
        have hhere : readingsAt c within module name base =
            if (c.module other).declares name || (c.module other).binds name then
              [extend base [name]]
            else if other = module then [] else within other := by
          simp only [readingsAt, hbase]
        simp only [hhere, ih, List.filter_cons_of_neg, hinside, Bool.false_eq_true,
          not_false_eq_true, Option.or_assoc]
        congr 1
        split_ifs <;> rfl
      | none =>
        have hhere : readingsAt c within module name base = [] := by simp only [readingsAt, hbase]
        simp only [hhere, ih, List.head?_nil, Option.none_or]
        congr 2
        unfold noteExternal
        cases hlead : dropLead? (c.name ++ "::") base with
        | some rest => simp [isOutside, hbase, hlead]
        | none => simp [isOutside, hbase, hlead]

theorem through_eq_head? {steps : Nat} {name : String} (budget : Nat) (running : List Nat)
    (module : Nat) :
    through c steps name budget running module =
      (readings c steps name budget running module).head? := by
  induction budget generalizing running module with
  | zero => rfl
  | succ budget ih =>
    rw [through, readings]
    by_cases hrunning : module ∈ running
    · rw [if_pos hrunning, if_pos hrunning, List.head?_nil]
    · rw [if_neg hrunning, if_neg hrunning, funext (ih (module :: running)), seek_eq_head?,
        readingsOf, List.nil_append]
      split
      next hnone => rw [hnone, List.head?_nil, Option.none_or, Option.head?_toList]
      next found hfound => rw [Option.or_of_isSome (List.isSome_head?.2 hfound)]

theorem soleExternal?_perm {name : String} {external external' : List String}
    (h : external'.Perm external) : soleExternal? name external' = soleExternal? name external := by
  have hlength := h.length_eq
  match external, external' with
  | [], [] => rfl
  | [crate], [crate'] => rw [List.singleton_perm_singleton.1 h]
  | _ :: _ :: _, _ :: _ :: _ => rfl

theorem readingsAt_perm (h : ReordersGlobs c c') {within within' : Nat → List String}
    (hwithin : ∀ other, (within' other).Perm (within other)) (module : Nat) (name base : String) :
    (readingsAt c' within' module name base).Perm (readingsAt c within module name base) := by
  unfold readingsAt
  rw [h.moduleNamed?]
  split
  next other _ =>
    rw [h.declares, h.binds]
    split_ifs
    · exact List.Perm.refl _
    · exact List.Perm.refl _
    · exact hwithin other
  next => exact List.Perm.refl _

theorem isOutside_eq (h : ReordersGlobs c c') (base : String) :
    c'.isOutside base = c.isOutside base := by
  rw [isOutside, isOutside, h.moduleNamed?, h.name]

theorem readingsOf_perm (h : ReordersGlobs c c') {within within' : Nat → List String}
    (hwithin : ∀ other, (within' other).Perm (within other)) (module : Nat) (name : String)
    {bases bases' : List String} (hbases : bases'.Perm bases) :
    (readingsOf c' within' module name bases').Perm (readingsOf c within module name bases) := by
  have hfound : (bases'.flatMap (readingsAt c' within' module name)).Perm
      (bases.flatMap (readingsAt c within module name)) :=
    hbases.flatMap fun base _ => readingsAt_perm h hwithin module name base
  have hexternal : (bases'.filter c'.isOutside).Perm (bases.filter c.isOutside) := by
    rw [funext (isOutside_eq h)]
    exact hbases.filter c.isOutside
  unfold readingsOf
  split
  next hnone =>
    rw [hnone] at hfound
    rw [List.nil_perm.1 hfound, soleExternal?_perm hexternal]
  next found hne =>
    split
    next hnone =>
      rw [hnone] at hfound
      exact absurd (List.perm_nil.1 hfound) hne
    next => exact hfound

/-- In another order of globs a name has the same readings. -/
theorem readings_perm (h : ReordersGlobs c c') {steps : Nat} {name : String} (budget : Nat)
    (running : List Nat) (module : Nat) :
    (readings c' steps name budget running module).Perm
      (readings c steps name budget running module) := by
  induction budget generalizing running module with
  | zero => exact List.Perm.refl _
  | succ budget ih =>
    rw [readings, readings]
    split_ifs
    · exact List.Perm.refl _
    · apply readingsOf_perm h (ih (module :: running))
      rw [h.direct]
      exact (h.module module).globs.filterMap _

/-- A list whose elements are all the same starts with the same in any order. -/
theorem head?_eq_of_perm {α : Type} {xs ys : List α} (h : ys.Perm xs)
    (hsame : ∀ x ∈ xs, ∀ x' ∈ xs, x = x') : ys.head? = xs.head? := by
  cases xs with
  | nil => rw [List.perm_nil.1 h]
  | cons x xs =>
    cases ys with
    | nil => exact absurd (List.nil_perm.1 h) (List.cons_ne_nil _ _)
    | cons y ys =>
      have hy : y ∈ x :: xs := h.subset List.mem_cons_self
      rw [List.head?_cons, List.head?_cons, hsame y hy x List.mem_cons_self]

end Readings

/-! ## Any order -/

variable {c c' : Crate}

/-- What a path comes to whose start only globs could tell. -/
theorem resolvePath_eq_through (hdirect : DirectImports c) {steps : Nat}
    {depth : Nat} (hglobs : GlobsWithin c steps) (hdepth : GlobDepthWithin c steps depth)
    (henough : depth + steps ≤ searchBudget) {module : Nat} {first : String} {rest : List String}
    (hpath : startsInGlobs c module ⟨false, first :: rest⟩ none = true) :
    resolvePath c module ⟨false, first :: rest⟩ =
      (afterGlobs c first rest (through c steps first searchBudget [] module)).bind
        (followBy c (direct c 32)) := by
  have hroom := room_first hdepth henough
  have hlookup : (globLookup c (answer c 32) module first Memo.empty).1 =
      through c steps first 33 [] module :=
    (leads_globLookup hdirect hglobs hroom (linked_singleton c steps module) Memo.empty .empty).1
  have hanswer : answerBy c (answer c 32) (globLookup c (answer c 32))
      (.path module ⟨false, first :: rest⟩ none) =
        (fun found => (afterGlobs c first rest found).bind (followBy c (direct c 32))) <$>
          globLookup c (answer c 32) module first :=
    answerBy_eq_map hdirect hpath fun _ hquestion => answer_eq_pure_direct hdirect 32 hquestion
  rw [resolvePath, searchBudget, answer_succ, hanswer, ← hlookup]
  rfl

/-- Where the targets of all imports are named without globs, the budget is enough for all look-ups
    that may go on one inside the other, and the name that a path starts with is not ambiguous, the
    path denotes the same in every order of the globs. -/
theorem resolvePath_reordersGlobs (h : ReordersGlobs c c') (hdirect : DirectImports c)
    {steps depth : Nat} (hglobs : GlobsWithin c steps) (hdepth : GlobDepthWithin c steps depth)
    (henough : depth + steps ≤ searchBudget) {module : Nat} {path : ItemPath}
    (hname : ∀ name ∈ path.segments.head?, Unambiguous c steps module name) :
    resolvePath c' module path = resolvePath c module path := by
  have hdirect' : DirectImports c' := h.directImports hdirect
  cases hpath : startsInGlobs c module path none with
  | false =>
    -- no glob is searched
    have hquestion : (Question.path module path none).Direct c := hpath
    have hquestion' : (Question.path module path none).Direct c' :=
      (h.startsInGlobs module path none).trans hpath
    rw [resolvePath, resolvePath, answer_eq_pure_direct hdirect _ hquestion,
      answer_eq_pure_direct hdirect' _ hquestion', h.direct]
  | true =>
    obtain ⟨first, rest, rfl⟩ := exists_of_startsInGlobs hpath
    have hpath' : startsInGlobs c' module ⟨false, first :: rest⟩ none = true :=
      (h.startsInGlobs module _ none).trans hpath
    have hthrough : through c' steps first searchBudget [] module =
        through c steps first searchBudget [] module := by
      rw [through_eq_head?, through_eq_head?]
      exact head?_eq_of_perm (readings_perm h searchBudget [] module) (hname first rfl)
    rw [resolvePath_eq_through hdirect hglobs hdepth henough hpath,
      resolvePath_eq_through hdirect' (h.globsWithin hglobs) (h.globDepthWithin hdepth) henough
        hpath', hthrough, h.direct, funext (h.followBy _), h.afterGlobs]

/-- A name that is behind one of the globs of a cycle, beside a glob into another crate. -/
theorem resolvePath_reordersGlobs_cycle :
    ∃ c, load (.ofTexts [(⟨"lib.rs"⟩, "mod a; mod b; use a::*; use b::*; use jobkit::*;"),
        (⟨"a.rs"⟩, "pub use crate::*;"), (⟨"b.rs"⟩, "pub use crate::a::*; pub struct N;")])
        "app" ["jobkit"] ⟨"lib.rs"⟩ = .ok c ∧
      ∃ c', load (.ofTexts [(⟨"lib.rs"⟩, "mod a; mod b; use jobkit::*; use b::*; use a::*;"),
          (⟨"a.rs"⟩, "pub use crate::*;"), (⟨"b.rs"⟩, "pub use crate::a::*; pub struct N;")])
          "app" ["jobkit"] ⟨"lib.rs"⟩ = .ok c' ∧
        ReordersGlobs c c' ∧ DirectImports c ∧ GlobsWithin c 2 ∧
        GlobDepthWithin c 2 (globModules c).length ∧ (globModules c).length + 2 ≤ searchBudget ∧
        Unambiguous c 2 0 "N" ∧ resolvePath c 0 ⟨false, ["N"]⟩ = some "app::b::N" ∧
        resolvePath c' 0 ⟨false, ["N"]⟩ = resolvePath c 0 ⟨false, ["N"]⟩ := by
  let second := load (.ofTexts [(⟨"lib.rs"⟩, "mod a; mod b; use jobkit::*; use b::*; use a::*;"),
    (⟨"a.rs"⟩, "pub use crate::*;"), (⟨"b.rs"⟩, "pub use crate::a::*; pub struct N;")])
    "app" ["jobkit"] ⟨"lib.rs"⟩
  refine exists_loaded_of_any (fun c => second.toOption.any fun c' =>
    decide (ReordersGlobs c c' ∧ DirectImports c ∧ GlobsWithin c 2 ∧
      (globModules c).length + 2 ≤ searchBudget ∧ Unambiguous c 2 0 "N" ∧
      resolvePath c 0 ⟨false, ["N"]⟩ = some "app::b::N"))
    (by decide +kernel) fun c _ htest => ?_
  obtain ⟨c', hload', h, hdirect, hglobs, henough, hname, hr⟩ := exists_loaded_of_decide htest
  have hdepth := globDepthWithin_globModules (c := c) 2
  refine ⟨c', hload', h, hdirect, hglobs, hdepth, henough, hname, hr, ?_⟩
  apply resolvePath_reordersGlobs h hdirect hglobs hdepth henough
  intro name hfirst
  obtain rfl : "N" = name := Option.some.inj hfirst
  exact hname

/-- A glob that leads to a module which imports all of another crate, before one that leads to the
    module which declares the name, and behind it. -/
theorem resolvePath_ne_of_reordersGlobs :
    ∃ c, load (.ofTexts [(⟨"lib.rs"⟩, "mod p; mod a; use p::*; use a::*;"),
        (⟨"p.rs"⟩, "pub use jobkit::*;"), (⟨"a.rs"⟩, "pub struct N;")])
        "app" ["jobkit"] ⟨"lib.rs"⟩ = .ok c ∧
      ∃ c', load (.ofTexts [(⟨"lib.rs"⟩, "mod p; mod a; use a::*; use p::*;"),
          (⟨"p.rs"⟩, "pub use jobkit::*;"), (⟨"a.rs"⟩, "pub struct N;")])
          "app" ["jobkit"] ⟨"lib.rs"⟩ = .ok c' ∧
        ReordersGlobs c c' ∧ resolvePath c 0 ⟨false, ["N"]⟩ = some "jobkit::N" ∧
        resolvePath c' 0 ⟨false, ["N"]⟩ = some "app::a::N" := by
  let second := load (.ofTexts [(⟨"lib.rs"⟩, "mod p; mod a; use a::*; use p::*;"),
    (⟨"p.rs"⟩, "pub use jobkit::*;"), (⟨"a.rs"⟩, "pub struct N;")]) "app" ["jobkit"] ⟨"lib.rs"⟩
  refine exists_loaded_of_any (fun c => second.toOption.any fun c' =>
    decide (ReordersGlobs c c' ∧ resolvePath c 0 ⟨false, ["N"]⟩ = some "jobkit::N" ∧
      resolvePath c' 0 ⟨false, ["N"]⟩ = some "app::a::N"))
    (by decide +kernel) fun c _ htest => exists_loaded_of_decide htest

end JobRoster.Crate
