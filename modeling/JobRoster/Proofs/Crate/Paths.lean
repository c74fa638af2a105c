import JobRoster.Crate.Resolution
import JobRoster.Proofs.Text.Segments

/-!
# Canonical paths and the way down the modules

How canonical paths are extended and taken apart, and what walking down the tree of modules along
one meets. A path along which no import is met denotes itself.
-/

namespace JobRoster.Crate

open Text

variable {c : Crate}

/-- The words that lead a path into the crate. No name is looked up for them. -/
def pathKeywords : List String :=
  ["crate", "self", "super"]

theorem resolveWritten_of_not_keyword {ask : Ask} {throughGlobs : GlobSearch} {module : Nat}
    {first : String} (h : first ∉ pathKeywords) (rest : List String)
    (without : Option BindingSite) :
    resolveWritten c ask throughGlobs module ⟨false, first :: rest⟩ without =
      resolveRelative c ask throughGlobs module first rest without := by
  simp only [pathKeywords, List.mem_cons, List.not_mem_nil, or_false, not_or] at h
  simp [resolveWritten, h]

theorem climb?_of_ne_super {module : Nat} {first : String} (h : first ≠ "super")
    (rest : List String) : climb? c module (first :: rest) = some (module, first :: rest) := by
  unfold climb?
  split
  next heq => exact absurd (List.cons.inj heq).1 h
  next => rfl

/-! ## Extending paths -/

@[simp] theorem extend_nil (path : String) : extend path [] = path := rfl

theorem extend_of_ne_nil (path : String) {segments : List String} (h : segments ≠ []) :
    extend path segments = path ++ "::" ++ joinSegments segments :=
  joinSegments_cons path h

@[simp] theorem extend_extend (path : String) (segments more : List String) :
    extend (extend path segments) more = extend path (segments ++ more) :=
  joinSegments_joinSegments path segments more

theorem canonicalIn_eq_extend (module segments : List String) :
    c.canonicalIn module segments = extend c.name (module ++ segments) := rfl

@[simp] theorem extend_canonicalIn (module segments more : List String) :
    extend (c.canonicalIn module segments) more = c.canonicalIn module (segments ++ more) := by
  simp only [canonicalIn_eq_extend, extend_extend, List.append_assoc]

/-! ## Paths in the crate -/

/-- A path is in the crate if it is the crate's name and some segments behind it. -/
theorem localSegments?_eq_some_iff {path : String} {segments : List String} :
    localSegments? c path = some segments ↔
      ∃ rest, path = c.name ++ "::" ++ rest ∧ splitSegments rest = segments := by
  rw [localSegments?, Option.map_eq_some_iff]
  simp only [dropLead?_eq_some_iff]

theorem eq_extend_of_localSegments? {path : String} {segments : List String}
    (h : localSegments? c path = some segments) : path = extend c.name segments := by
  obtain ⟨rest, rfl, rfl⟩ := localSegments?_eq_some_iff.1 h
  rw [extend_of_ne_nil _ (splitSegments_ne_nil rest), joinSegments_splitSegments]

theorem localSegments?_extend {segments : List String} (hne : segments ≠ [])
    (h : ∀ segment ∈ segments, ':' ∉ segment.toList) :
    localSegments? c (extend c.name segments) = some segments :=
  localSegments?_eq_some_iff.2
    ⟨_, extend_of_ne_nil _ hne, splitSegments_joinSegments hne h⟩

theorem localSegments?_name : localSegments? c c.name = none := by
  refine Option.eq_none_iff_forall_ne_some.2 fun segments h => ?_
  obtain ⟨rest, hname, -⟩ := localSegments?_eq_some_iff.1 h
  have hlength := congrArg String.length hname
  have hseparator : "::".length = 2 := rfl
  simp only [String.length_append, hseparator] at hlength
  omega

/-- The walk along a canonical path meets the segments that it was made of. -/
theorem localSegments?_canonicalIn {module segments : List String}
    (h : ∀ segment ∈ module ++ segments, ':' ∉ segment.toList) :
    localSegments? c (c.canonicalIn module segments) =
      if module ++ segments = [] then none else some (module ++ segments) := by
  rw [canonicalIn_eq_extend]
  split
  next hempty => rw [hempty, extend_nil, localSegments?_name]
  next hne => exact localSegments?_extend hne h

/-- Canonical paths tell apart what is made of other segments. -/
theorem canonicalIn_eq_iff {module segments module' segments' : List String}
    (h : ∀ segment ∈ module ++ segments, ':' ∉ segment.toList)
    (h' : ∀ segment ∈ module' ++ segments', ':' ∉ segment.toList) :
    c.canonicalIn module segments = c.canonicalIn module' segments' ↔
      module ++ segments = module' ++ segments' := by
  constructor
  · intro hsame
    have hlocal : localSegments? c (c.canonicalIn module segments) = _ :=
      localSegments?_canonicalIn h
    rw [hsame, localSegments?_canonicalIn h'] at hlocal
    by_cases hempty : module ++ segments = []
    · by_cases hempty' : module' ++ segments' = []
      · rw [hempty, hempty']
      · rw [if_neg hempty', if_pos hempty] at hlocal
        cases hlocal
    · by_cases hempty' : module' ++ segments' = []
      · rw [if_pos hempty', if_neg hempty] at hlocal
        cases hlocal
      · rw [if_neg hempty', if_neg hempty] at hlocal
        exact (Option.some.inj hlocal).symm
  · intro hsegments
    rw [canonicalIn_eq_extend, canonicalIn_eq_extend, hsegments]

/-! ## Modules by their paths -/

theorem module_of_getElem? {index : Nat} {m : Module} (h : c.modules[index]? = some m) :
    c.module index = m := by
  rw [Crate.module, List.getD_eq_getElem?_getD, h, Option.getD_some]

theorem module_of_length_le {index : Nat} (h : c.modules.length ≤ index) :
    c.module index = Module.new [] none .crate := by
  rw [Crate.module, List.getD_eq_getElem?_getD, List.getElem?_eq_none h, Option.getD_none]

theorem module_mem_or_eq_new (index : Nat) :
    c.module index ∈ c.modules ∨ c.module index = Module.new [] none .crate := by
  rcases Nat.lt_or_ge index c.modules.length with hlt | hge
  · rw [module_of_getElem? (List.getElem?_eq_getElem hlt)]
    exact .inl (List.getElem_mem hlt)
  · exact .inr (module_of_length_le hge)

theorem getElem?_module {index : Nat} (h : index < c.modules.length) :
    c.modules[index]? = some (c.module index) := by
  rw [module_of_getElem? (List.getElem?_eq_getElem h), List.getElem?_eq_getElem h]

theorem parent_module (index : Nat) :
    c.modules[index]?.bind (·.parent) = (c.module index).parent := by
  rcases Nat.lt_or_ge index c.modules.length with hlt | hge
  · rw [getElem?_module hlt, Option.bind_some]
  · rw [List.getElem?_eq_none hge, module_of_length_le hge]
    rfl

theorem lt_length_of_declares {index : Nat} {name : String}
    (h : (c.module index).declares name = true) : index < c.modules.length := by
  by_contra hge
  rw [module_of_length_le (Nat.le_of_not_lt hge)] at h
  cases h

theorem exists_of_lastIndex? {α : Type} {p : α → Bool} {xs : List α} {index : Nat}
    (h : lastIndex? p xs = some index) : ∃ x, xs[index]? = some x ∧ p x = true := by
  induction xs generalizing index with
  | nil => cases h
  | cons first xs ih =>
    rw [lastIndex?] at h
    split at h
    next later hlater =>
      obtain rfl := Option.some.inj h
      exact ih hlater
    next =>
      split at h
      next hfirst =>
        obtain rfl := Option.some.inj h
        exact ⟨first, rfl, hfirst⟩
      next => cases h

theorem lastIndex?_eq_none_iff {α : Type} {p : α → Bool} {xs : List α} :
    lastIndex? p xs = none ↔ ∀ x ∈ xs, p x = false := by
  induction xs with
  | nil => simp [lastIndex?]
  | cons first xs ih =>
    rw [lastIndex?, List.forall_mem_cons, ← ih]
    cases lastIndex? p xs with
    | some later => simp
    | none => simp

theorem exists_module_of_moduleNamed? {path : String} {index : Nat}
    (h : c.moduleNamed? path = some index) :
    ∃ m, c.modules[index]? = some m ∧ c.canonicalIn m.path [] = path := by
  obtain ⟨m, hm, hpath⟩ := exists_of_lastIndex? h
  exact ⟨m, hm, of_decide_eq_true hpath⟩

/-! ## The way down -/

/-- The module that segments lead down to from a module. -/
def descend? (c : Crate) : (module : Nat) → List String → Option Nat
  | module, [] => some module
  | module, segment :: segments =>
    match c.moduleNamed? (c.canonicalIn ((c.module module).path ++ [segment]) []) with
    | some next => descend? c next segments
    | none => none

/-- No module on the way down from `module` along the segments has an import with the name of the
    segment that comes next. -/
def MeetsNoBinding (c : Crate) (module : Nat) (segments : List String) : Prop :=
  ∀ passed segment rest site, segments = passed ++ segment :: rest →
    descend? c module passed = some site → (c.module site).binds segment = false

theorem bindingOf?_eq_none_iff {module : Nat} {name : String} :
    bindingOf? c module name none = none ↔ (c.module module).binds name = false := by
  rw [bindingOf?, Option.map_eq_none_iff, List.find?_eq_none, Module.binds, List.any_eq_false]
  constructor
  · intro h binding hbinding hname
    obtain ⟨index, hindex⟩ := List.mem_iff_getElem?.1 hbinding
    exact h (binding, index) (List.mem_zipIdx_iff_getElem?.2 hindex) (by simpa using hname)
  · rintro h ⟨binding, index⟩ hbinding hname
    refine h binding ?_ (by simpa using hname)
    exact List.mem_of_getElem? (List.mem_zipIdx_iff_getElem?.1 hbinding)

/-- What is looked up is a binding of that name, with its place. -/
theorem exists_getElem?_of_bindingOf? {module : Nat} {name : String} {without : Option BindingSite}
    {hit : BindingHit} (h : bindingOf? c module name without = some hit) :
    hit.site.module = module ∧ ∃ binding,
      (c.module module).bindings[hit.site.index]? = some binding ∧ binding.target = hit.target := by
  obtain ⟨⟨binding, index⟩, hfind, rfl⟩ := Option.map_eq_some_iff.1 h
  exact ⟨rfl, binding, List.mem_zipIdx_iff_getElem?.1 (List.mem_of_find?_eq_some hfind), rfl⟩

theorem exists_mem_of_bindingOf? {module : Nat} {name : String} {without : Option BindingSite}
    {hit : BindingHit} (h : bindingOf? c module name without = some hit) :
    hit.site.module = module ∧
      ∃ binding ∈ (c.module module).bindings, binding.name = name ∧ binding.target = hit.target := by
  obtain ⟨⟨binding, index⟩, hfind, rfl⟩ := Option.map_eq_some_iff.1 h
  have hmem : (binding, index) ∈ (c.module module).bindings.zipIdx :=
    List.mem_of_find?_eq_some hfind
  have hname := List.find?_some hfind
  simp only [Bool.and_eq_true, decide_eq_true_eq] at hname
  exact ⟨rfl, binding, List.mem_of_getElem? (List.mem_zipIdx_iff_getElem?.1 hmem), hname.1, rfl⟩

/-- The import that is met has the name of the segment before those that are left. -/
theorem exists_name_of_reexportAlong? {module : Nat} {segments rest : List String}
    {hit : BindingHit} (h : reexportAlong? c module segments = some (hit, rest)) :
    ∃ passed name site, segments = passed ++ name :: rest ∧
      bindingOf? c site name none = some hit := by
  induction segments generalizing module with
  | nil => cases h
  | cons segment segments ih =>
    rw [reexportAlong?] at h
    split at h
    next found hfound =>
      obtain ⟨rfl, rfl⟩ := Prod.mk.inj (Option.some.inj h)
      exact ⟨[], segment, module, rfl, hfound⟩
    next =>
      split at h
      next next _ =>
        obtain ⟨passed, name, site, rfl, hfound⟩ := ih h
        exact ⟨segment :: passed, name, site, rfl, hfound⟩
      next => cases h

theorem meetsNoBinding_cons {module : Nat} {segment : String} {segments : List String} :
    MeetsNoBinding c module (segment :: segments) ↔
      (c.module module).binds segment = false ∧
        ∀ next, c.moduleNamed? (c.canonicalIn ((c.module module).path ++ [segment]) []) =
          some next → MeetsNoBinding c next segments := by
  constructor
  · intro h
    refine ⟨h [] segment segments module rfl rfl, ?_⟩
    rintro next hnext passed segment' rest site rfl hsite
    exact h (segment :: passed) segment' rest site rfl (by simpa [descend?, hnext] using hsite)
  · rintro ⟨hfirst, hrest⟩ passed segment' rest site heq hsite
    cases passed with
    | nil =>
      obtain ⟨rfl, rfl⟩ := List.cons.inj heq
      obtain rfl : module = site := Option.some.inj hsite
      exact hfirst
    | cons _ passed =>
      obtain ⟨rfl, rfl⟩ := List.cons.inj heq
      rw [descend?] at hsite
      split at hsite
      next next hnext => exact hrest next hnext passed segment' rest site rfl hsite
      · cases hsite

theorem reexportAlong?_eq_none_iff {module : Nat} {segments : List String} :
    reexportAlong? c module segments = none ↔ MeetsNoBinding c module segments := by
  induction segments generalizing module with
  | nil => simp [reexportAlong?, MeetsNoBinding]
  | cons segment segments ih =>
    rw [meetsNoBinding_cons, reexportAlong?]
    cases hbinding : bindingOf? c module segment none with
    | some hit =>
      have hbinds : (c.module module).binds segment ≠ false := by
        rw [Ne, ← bindingOf?_eq_none_iff, hbinding]
        exact Option.some_ne_none hit
      simp [hbinds]
    | none =>
      rw [bindingOf?_eq_none_iff] at hbinding
      cases hnext : c.moduleNamed? (c.canonicalIn ((c.module module).path ++ [segment]) []) with
      | none => simp [hbinding]
      | some next => simp [hbinding, ih]

/-! ## Settled paths -/

/-- No import is met along a path, or it leads out of the crate. -/
def Settled (c : Crate) (path : String) : Prop :=
  ∀ segments, localSegments? c path = some segments → MeetsNoBinding c 0 segments

theorem settled_iff {path : String} :
    Settled c path ↔ (localSegments? c path).bind (reexportAlong? c 0) = none := by
  rw [Settled, Option.bind_eq_none_iff]
  simp only [reexportAlong?_eq_none_iff]

theorem followReexports_of_settled {path : String} (h : Settled c path) (ask : Ask) :
    followReexports c ask path = pure (some path) := by
  rw [followReexports, settled_iff.1 h]

end JobRoster.Crate
