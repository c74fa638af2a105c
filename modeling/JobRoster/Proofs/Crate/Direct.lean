import JobRoster.Proofs.Crate.Paths
import JobRoster.Proofs.Crate.Search

/-!
# Direct resolution

What a path denotes by keywords, declarations, other crates and imports of single names alone.
Without glob imports there is nothing to remember, so an answer is a value that only the budget can
keep from being found, and a larger budget finds it again. Searches that find nothing through globs
give these values.
-/

namespace JobRoster.Crate

open Text

variable {c : Crate}

/-- What questions come to. -/
abbrev Reply := Question → Option String

/-! ## One step -/

/-- Follows the imports along a canonical path. -/
def followBy (c : Crate) (reply : Reply) (path : String) : Option String :=
  match (localSegments? c path).bind (reexportAlong? c 0) with
  | none => some path
  | some (hit, rest) =>
    (reply (.path hit.site.module hit.target (some hit.site))).bind fun target =>
      reply (.reexports (extend target rest))

/-- What a name that starts a path denotes. -/
def nameBy (c : Crate) (reply : Reply) (module : Nat) (name : String)
    (without : Option BindingSite) : Option String :=
  match bindingOf? c module name without with
  | some hit => reply (.path hit.site.module hit.target (some hit.site))
  | none =>
    if (c.module module).declares name then some (c.canonicalIn (c.module module).path [name])
    else if c.isExtern name then some name
    else none

/-- Where a path starts, and the segments it goes on with. -/
def startBy (c : Crate) (reply : Reply) (module : Nat) (path : ItemPath)
    (without : Option BindingSite) : Option (String × List String) :=
  match path.segments with
  | [] => none
  | first :: rest =>
    if path.leadingColon then if c.isExtern first then some (first, rest) else none
    else if first = "crate" then some (c.canonicalIn [] [], rest)
    else if first = "self" then some (c.canonicalIn (c.module module).path [], rest)
    else if first = "super" then
      (climb? c module path.segments).map fun (up, segments) =>
        (c.canonicalIn (c.module up).path [], segments)
    else (nameBy c reply module first without).map (·, rest)

/-- What a path denotes before the imports along it are followed. -/
def writtenBy (c : Crate) (reply : Reply) (module : Nat) (path : ItemPath)
    (without : Option BindingSite) : Option String :=
  (startBy c reply module path without).map fun (start, rest) => extend start rest

/-- What a question comes to within a budget, if no glob import is needed. -/
def direct (c : Crate) : (budget : Nat) → Reply
  | 0, _ => none
  | budget + 1, .path module path without =>
    (writtenBy c (direct c budget) module path without).bind (followBy c (direct c budget))
  | budget + 1, .reexports path => followBy c (direct c budget) path
  | _ + 1, .glob _ _ => none

theorem startBy_of_not_keyword {reply : Reply} {module : Nat} {first : String}
    (h : first ∉ pathKeywords) (rest : List String) (without : Option BindingSite) :
    startBy c reply module ⟨false, first :: rest⟩ without =
      (nameBy c reply module first without).map (·, rest) := by
  simp only [pathKeywords, List.mem_cons, List.not_mem_nil, or_false, not_or] at h
  simp [startBy, h]

/-! ## More budget -/

section Mono

variable {reply more : Reply}
  (hmore : ∀ question r, reply question = some r → more question = some r)
include hmore

theorem followBy_mono {path r : String} (h : followBy c reply path = some r) :
    followBy c more path = some r := by
  unfold followBy at h ⊢
  split at h
  next hnone => exact h
  next hit rest hsome =>
    obtain ⟨target, htarget, hrest⟩ := Option.bind_eq_some_iff.1 h
    exact Option.bind_eq_some_iff.2 ⟨target, hmore _ _ htarget, hmore _ _ hrest⟩

theorem nameBy_mono {module : Nat} {name r : String} {without : Option BindingSite}
    (h : nameBy c reply module name without = some r) :
    nameBy c more module name without = some r := by
  unfold nameBy at h ⊢
  split at h
  next hit _ => exact hmore _ _ h
  next => exact h

theorem startBy_mono {module : Nat} {path : ItemPath} {without : Option BindingSite}
    {start : String × List String} (h : startBy c reply module path without = some start) :
    startBy c more module path without = some start := by
  unfold startBy at h ⊢
  split at h
  · cases h
  next first rest _ =>
    split_ifs at h ⊢
    case neg =>
      obtain ⟨name, hname, rfl⟩ := Option.map_eq_some_iff.1 h
      exact Option.map_eq_some_iff.2 ⟨name, nameBy_mono hmore hname, rfl⟩
    all_goals exact h

theorem writtenBy_mono {module : Nat} {path : ItemPath} {without : Option BindingSite} {r : String}
    (h : writtenBy c reply module path without = some r) :
    writtenBy c more module path without = some r := by
  obtain ⟨start, hstart, rfl⟩ := Option.map_eq_some_iff.1 h
  exact Option.map_eq_some_iff.2 ⟨start, startBy_mono hmore hstart, rfl⟩

end Mono

theorem direct_succ {budget : Nat} {question : Question} {r : String}
    (h : direct c budget question = some r) : direct c (budget + 1) question = some r := by
  induction budget generalizing question r with
  | zero => cases h
  | succ budget ih =>
    cases question with
    | path module path without =>
      obtain ⟨written, hwritten, hfollow⟩ := Option.bind_eq_some_iff.1 h
      exact Option.bind_eq_some_iff.2
        ⟨written, writtenBy_mono (fun _ _ => ih) hwritten, followBy_mono (fun _ _ => ih) hfollow⟩
    | reexports path => exact followBy_mono (fun _ _ => ih) h
    | glob module name => cases h

theorem direct_mono {budget more : Nat} (hle : budget ≤ more) {question : Question} {r : String}
    (h : direct c budget question = some r) : direct c more question = some r := by
  induction hle with
  | refl => exact h
  | step _ ih => exact direct_succ ih

/-! ## What a question comes to -/

/-- Some budget is enough for a question to come to `r`. -/
def Denotes (c : Crate) (question : Question) (r : String) : Prop :=
  ∃ budget, direct c budget question = some r

theorem Denotes.unique {question : Question} {r r' : String} (h : Denotes c question r)
    (h' : Denotes c question r') : r = r' := by
  obtain ⟨budget, hr⟩ := h
  obtain ⟨budget', hr'⟩ := h'
  -- the larger of the two budgets finds both
  have hmax := direct_mono (Nat.le_max_left budget budget') hr
  have hmax' := direct_mono (Nat.le_max_right budget budget') hr'
  exact Option.some.inj (hmax.symm.trans hmax')

/-- A canonical path with an import along it denotes what the target of the import does, with the
    segments after the import. -/
theorem denotes_reexports_of_some {path r : String} {hit : BindingHit} {rest : List String}
    (h : (localSegments? c path).bind (reexportAlong? c 0) = some (hit, rest)) :
    Denotes c (.reexports path) r ↔
      ∃ target, Denotes c (.path hit.site.module hit.target (some hit.site)) target ∧
        Denotes c (.reexports (extend target rest)) r := by
  constructor
  · rintro ⟨budget, hr⟩
    cases budget with
    | zero => cases hr
    | succ budget =>
      rw [direct, followBy, h] at hr
      obtain ⟨target, htarget, hrest⟩ := Option.bind_eq_some_iff.1 hr
      exact ⟨target, ⟨budget, htarget⟩, ⟨budget, hrest⟩⟩
  · rintro ⟨target, ⟨budget, htarget⟩, ⟨budget', hrest⟩⟩
    refine ⟨max budget budget' + 1, ?_⟩
    rw [direct, followBy, h]
    exact Option.bind_eq_some_iff.2 ⟨target, direct_mono (Nat.le_max_left _ _) htarget,
      direct_mono (Nat.le_max_right _ _) hrest⟩

/-- What is found for a path is what its written form comes to. -/
theorem exists_written_of_denotes {module : Nat} {path : ItemPath} {without : Option BindingSite}
    {r : String} (h : Denotes c (.path module path without) r) :
    ∃ budget written, writtenBy c (direct c budget) module path without = some written ∧
      Denotes c (.reexports written) r := by
  obtain ⟨budget, hr⟩ := h
  cases budget with
  | zero => cases hr
  | succ budget =>
    obtain ⟨written, hwritten, hfollow⟩ := Option.bind_eq_some_iff.1 hr
    exact ⟨budget, written, hwritten, budget + 1, hfollow⟩

/-! ## Searches that come to the same -/

/-- Only glob imports could tell what the path starts from. -/
def startsInGlobs (c : Crate) (module : Nat) (path : ItemPath) (without : Option BindingSite) :
    Bool :=
  match path with
  | ⟨false, first :: _⟩ =>
    first ∉ pathKeywords && (bindingOf? c module first without).isNone &&
      !(c.module module).declares first && !c.isExtern first
  | _ => false

/-- The import that a canonical path meets first is a binding of some module. -/
theorem exists_bindingOf?_of_reexport {path : String} {hit : BindingHit} {rest : List String}
    (h : (localSegments? c path).bind (reexportAlong? c 0) = some (hit, rest)) :
    ∃ site name, bindingOf? c site name none = some hit := by
  obtain ⟨segments, -, halong⟩ := Option.bind_eq_some_iff.1 h
  obtain ⟨-, name, site, -, hhit⟩ := exists_name_of_reexportAlong? halong
  exact ⟨site, name, hhit⟩

section Bridge

open Search

variable {I : Memo → Prop} {D : Question → Prop} {ask : Ask} {reply : Reply}

/-- A set of questions that holds all those about imports. -/
structure ClosedUnderImports (c : Crate) (D : Question → Prop) : Prop where
  path : ∀ module name without hit, bindingOf? c module name without = some hit →
    D (.path hit.site.module hit.target (some hit.site))
  reexports : ∀ path, D (.reexports path)

theorem gives_followReexports (hD : ClosedUnderImports c D)
    (hask : ∀ question, D question → Gives I (ask question) (reply question)) (path : String) :
    Gives I (followReexports c ask path) (followBy c reply path) := by
  unfold followReexports followBy
  cases halong : (localSegments? c path).bind (reexportAlong? c 0) with
  | none => exact .pure (some path)
  | some found =>
    obtain ⟨hit, rest⟩ := found
    obtain ⟨site, name, hhit⟩ := exists_bindingOf?_of_reexport halong
    refine (hask _ (hD.path site name none hit hhit)).bind ?_
    simp only
    cases reply (.path hit.site.module hit.target (some hit.site)) with
    | none => exact .pure none
    | some target => exact hask _ (hD.reexports _)

theorem gives_resolveRelative (hD : ClosedUnderImports c D)
    (hask : ∀ question, D question → Gives I (ask question) (reply question))
    {throughGlobs : GlobSearch} {module : Nat} {first : String} {without : Option BindingSite}
    (hglobs : bindingOf? c module first without = none → (c.module module).declares first = false →
      c.isExtern first = false → Gives I (throughGlobs module first) none ∧ c.macroCrates = [])
    (rest : List String) :
    Gives I (resolveRelative c ask throughGlobs module first rest without)
      ((nameBy c reply module first without).map (extend · rest)) := by
  unfold resolveRelative nameBy
  cases hbinding : bindingOf? c module first without with
  | some hit => exact (hask _ (hD.path module first without hit hbinding)).bind (.pure _)
  | none =>
    by_cases hdeclares : (c.module module).declares first = true
    · simp only [hdeclares, if_true, Option.map_some, extend_canonicalIn]
      exact .pure _
    · by_cases hcrate : c.isExtern first = true
      · simp only [hdeclares, hcrate, if_true, Bool.false_eq_true, if_false]
        exact .pure _
      · obtain ⟨hnothing, hmacros⟩ :=
          hglobs hbinding (Bool.eq_false_iff.2 hdeclares) (Bool.eq_false_iff.2 hcrate)
        simp only [hdeclares, hcrate, hmacros, Bool.false_eq_true, if_false]
        refine hnothing.bind ?_
        cases rest <;> exact .pure none

theorem gives_resolveWritten (hD : ClosedUnderImports c D)
    (hask : ∀ question, D question → Gives I (ask question) (reply question))
    {throughGlobs : GlobSearch} {module : Nat} {path : ItemPath} {without : Option BindingSite}
    (hglobs : startsInGlobs c module path without = true →
      (∀ name, Gives I (throughGlobs module name) none) ∧ c.macroCrates = []) :
    Gives I (resolveWritten c ask throughGlobs module path without)
      (writtenBy c reply module path without) := by
  obtain ⟨leadingColon, segments⟩ := path
  unfold resolveWritten writtenBy startBy
  cases segments with
  | nil => exact .pure none
  | cons first rest =>
    cases leadingColon with
    | true => by_cases hcrate : c.isExtern first = true <;> simp only [hcrate] <;> exact .pure _
    | false =>
      simp only [Bool.false_eq_true, if_false]
      by_cases hown : first = "crate"
      · rw [if_pos hown, if_pos hown, Option.map_some, extend_canonicalIn]
        exact .pure _
      rw [if_neg hown, if_neg hown]
      by_cases hself : first = "self"
      · rw [if_pos hself, if_pos hself, Option.map_some, extend_canonicalIn]
        exact .pure _
      rw [if_neg hself, if_neg hself]
      by_cases hsuper : first = "super"
      · rw [if_pos hsuper, if_pos hsuper, Option.map_map]
        simp only [Function.comp_def, extend_canonicalIn]
        exact .pure _
      rw [if_neg hsuper, if_neg hsuper, Option.map_map]
      refine gives_resolveRelative hD hask (fun hbinding hdeclares hcrate => ?_) rest
      obtain ⟨hnothing, hmacros⟩ := hglobs (by
        simp [startsInGlobs, pathKeywords, hown, hself, hsuper, hbinding, hdeclares, hcrate])
      exact ⟨hnothing first, hmacros⟩

/-- To a set of questions of which none finds anything through globs, a search by steps gives the
    answers of `direct`. -/
theorem gives_direct (hD : ClosedUnderImports c D) (hglob : ∀ module name, ¬ D (.glob module name))
    (search : Nat → Ask) (throughGlobs : Nat → GlobSearch)
    (hzero : ∀ question, search 0 question = pure none)
    (hsucc : ∀ budget question, search (budget + 1) question =
      answerBy c (search budget) (throughGlobs budget) question)
    (hglobs : ∀ budget module path without, D (.path module path without) →
      startsInGlobs c module path without = true →
        (∀ name, Gives I (throughGlobs budget module name) none) ∧ c.macroCrates = [])
    (budget : Nat) : ∀ question, D question →
      Gives I (search budget question) (direct c budget question) := by
  induction budget with
  | zero =>
    intro question _
    rw [hzero]
    exact .pure none
  | succ budget ih =>
    intro question hquestion
    rw [hsucc]
    cases question with
    | path module path without =>
      refine (gives_resolveWritten hD ih (hglobs budget module path without hquestion)).bind ?_
      rw [direct]
      cases writtenBy c (direct c budget) module path without with
      | none => exact .pure none
      | some written => exact gives_followReexports hD ih written
    | reexports path => exact gives_followReexports hD ih path
    | glob module name => exact absurd hquestion (hglob module name)

end Bridge

end JobRoster.Crate
