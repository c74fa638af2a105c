import JobRoster.Proofs.Crate.Paths
import JobRoster.Proofs.Crate.Search

/-!
# How an answer is found

`Found` has one rule for each way in which a search comes to an answer. It knows nothing of budgets,
of the order of globs or of what is remembered, so it allows more than a search does. Whatever a
search answers is found by these rules, which is all that is needed to learn something of an answer.
-/

namespace JobRoster.Crate

open Text

/-- The answers to a question that imports, declarations and globs can lead to. -/
inductive Found (c : Crate) : Question → String → Prop
  | settled {path : String} (h : Settled c path) : Found c (.reexports path) path
  | reexport {path target r : String} {hit : BindingHit} {rest : List String}
      (halong : (localSegments? c path).bind (reexportAlong? c 0) = some (hit, rest))
      (htarget : Found c (.path hit.site.module hit.target (some hit.site)) target)
      (hrest : Found c (.reexports (extend target rest)) r) : Found c (.reexports path) r
  | outside {module : Nat} {first r : String} {rest : List String} {without : Option BindingSite}
      (hcrate : c.isExtern first = true) (h : Found c (.reexports (extend first rest)) r) :
      Found c (.path module ⟨true, first :: rest⟩ without) r
  | crate {module : Nat} {r : String} {rest : List String} {without : Option BindingSite}
      (h : Found c (.reexports (c.canonicalIn [] rest)) r) :
      Found c (.path module ⟨false, "crate" :: rest⟩ without) r
  | self {module : Nat} {r : String} {rest : List String} {without : Option BindingSite}
      (h : Found c (.reexports (c.canonicalIn (c.module module).path rest)) r) :
      Found c (.path module ⟨false, "self" :: rest⟩ without) r
  | super {module up : Nat} {r : String} {rest segments : List String}
      {without : Option BindingSite}
      (hclimb : climb? c module ("super" :: rest) = some (up, segments))
      (h : Found c (.reexports (c.canonicalIn (c.module up).path segments)) r) :
      Found c (.path module ⟨false, "super" :: rest⟩ without) r
  | binding {module : Nat} {first target r : String} {rest : List String} {hit : BindingHit}
      {without : Option BindingSite} (hfirst : first ∉ pathKeywords)
      (hhit : bindingOf? c module first without = some hit)
      (htarget : Found c (.path hit.site.module hit.target (some hit.site)) target)
      (h : Found c (.reexports (extend target rest)) r) :
      Found c (.path module ⟨false, first :: rest⟩ without) r
  | declared {module : Nat} {first r : String} {rest : List String} {without : Option BindingSite}
      (hfirst : first ∉ pathKeywords) (hdeclares : (c.module module).declares first = true)
      (h : Found c (.reexports (c.canonicalIn (c.module module).path (first :: rest))) r) :
      Found c (.path module ⟨false, first :: rest⟩ without) r
  | otherCrate {module : Nat} {first r : String} {rest : List String} {without : Option BindingSite}
      (hfirst : first ∉ pathKeywords) (hcrate : c.isExtern first = true)
      (h : Found c (.reexports (extend first rest)) r) :
      Found c (.path module ⟨false, first :: rest⟩ without) r
  | globbed {module : Nat} {first found r : String} {rest : List String}
      {without : Option BindingSite} (hfirst : first ∉ pathKeywords)
      (hglob : Found c (.glob module first) found)
      (h : Found c (.reexports (extend found rest)) r) :
      Found c (.path module ⟨false, first :: rest⟩ without) r
  | macroCrate {module : Nat} {first crate r : String} {without : Option BindingSite}
      (hfirst : first ∉ pathKeywords) (hcrate : crate ∈ c.macroCrates)
      (h : Found c (.reexports (extend crate [first])) r) :
      Found c (.path module ⟨false, [first]⟩ without) r
  | globHere {module target : Nat} {name base : String} {glob : Glob}
      (hglob : glob ∈ (c.module module).globs) (hbase : Found c (.path module glob.target none) base)
      (hmodule : c.moduleNamed? base = some target)
      (hname : ((c.module target).declares name || (c.module target).binds name) = true) :
      Found c (.glob module name) (extend base [name])
  | globWithin {module target : Nat} {name base r : String} {glob : Glob}
      (hglob : glob ∈ (c.module module).globs) (hbase : Found c (.path module glob.target none) base)
      (hmodule : c.moduleNamed? base = some target) (h : Found c (.glob target name) r) :
      Found c (.glob module name) r
  | globOutside {module : Nat} {name base : String} {glob : Glob}
      (hglob : glob ∈ (c.module module).globs)
      (hbase : Found c (.path module glob.target none) base) :
      Found c (.glob module name) (extend base [name])

variable {c : Crate}

/-! ## Searches that find -/

/-- Every answer that is remembered is found. -/
def Memo.Remembered (c : Crate) (memo : Memo) : Prop :=
  ∀ module name found, memo.find? ⟨module, name⟩ = some (some found) →
    Found c (.glob module name) found

namespace Memo.Remembered

variable {memo : Memo}

theorem empty : Memo.empty.Remembered c := by
  simp [Memo.Remembered]

theorem start (h : memo.Remembered c) (lookup : Lookup) : (memo.start lookup).Remembered c := by
  intro module name found hfound
  rw [find?_start] at hfound
  split at hfound
  · cases hfound
  · exact h module name found hfound

theorem finish (h : memo.Remembered c) {module : Nat} {name : String} {answer : Option String}
    (hanswer : ∀ found, answer = some found → Found c (.glob module name) found) :
    (memo.finish ⟨module, name⟩ answer).Remembered c := by
  intro other otherName found hfound
  rw [find?_finish] at hfound
  split at hfound
  next hsame =>
    obtain ⟨rfl, rfl⟩ := Lookup.mk.inj hsame
    obtain ⟨_, _, hsome⟩ := Option.map_eq_some_iff.1 hfound
    exact hanswer found hsome
  · exact h other otherName found hfound

end Memo.Remembered

/-- Where what is remembered is found, the answer satisfies `P`, and what is remembered after it is
    found. -/
def Search.Finds (c : Crate) (P : String → Prop) (s : Search) : Prop :=
  ∀ memo : Memo, memo.Remembered c → (∀ r, (s memo).1 = some r → P r) ∧ (s memo).2.Remembered c

namespace Search.Finds

variable {P Q : String → Prop}

theorem pure {answer : Option String} (h : ∀ r, answer = some r → P r) :
    Finds c P (Pure.pure answer : Search) :=
  fun _ hmemo => ⟨h, hmemo⟩

theorem none : Finds c P (Pure.pure .none : Search) :=
  .pure fun _ h => nomatch h

theorem some {r : String} (h : P r) : Finds c P (Pure.pure (.some r) : Search) :=
  .pure fun _ hr => Option.some.inj hr ▸ h

theorem bind {s : Search} {f : Option String → Search} (hs : Finds c P s)
    (hnone : Finds c Q (f .none)) (hsome : ∀ r, P r → Finds c Q (f (.some r))) :
    Finds c Q (s >>= f) := by
  intro memo hmemo
  obtain ⟨hanswer, hafter⟩ := hs memo hmemo
  rw [bind_apply]
  cases h : (s memo).1 with
  | none => exact hnone _ hafter
  | some r => exact hsome r (hanswer r h) _ hafter

theorem mono {s : Search} (hs : Finds c P s) (h : ∀ r, P r → Q r) : Finds c Q s :=
  fun memo hmemo => ⟨fun r hr => h r ((hs memo hmemo).1 r hr), (hs memo hmemo).2⟩

end Search.Finds

open Search

/-! ## Each step finds -/

section Steps

variable {ask : Ask} (hask : ∀ question, Finds c (Found c question) (ask question))
include hask

theorem finds_followReexports (path : String) :
    Finds c (Found c (.reexports path)) (followReexports c ask path) := by
  unfold followReexports
  split
  next hnone => exact .some (.settled (settled_iff.2 hnone))
  next hit rest halong =>
    refine (hask _).bind .none fun target htarget => ?_
    exact (hask _).mono fun r hr => .reexport halong htarget hr

theorem finds_searchGlob {module target : Nat} {name base : String} {glob : Glob}
    (hglob : glob ∈ (c.module module).globs) (hbase : Found c (.path module glob.target none) base)
    (hmodule : c.moduleNamed? base = some target) :
    Finds c (Found c (.glob module name)) (searchGlob c ask module name base target) := by
  unfold searchGlob
  split
  next hname => exact .some (.globHere hglob hbase hmodule hname)
  next =>
    split
    · exact .none
    · exact (hask _).mono fun r hr => .globWithin hglob hbase hmodule hr

theorem finds_searchGlobs {module : Nat} {name : String} {external : List String}
    (hexternal : ∀ base ∈ external, Found c (.glob module name) (extend base [name]))
    {globs : List Glob} (hglobs : ∀ glob ∈ globs, glob ∈ (c.module module).globs) :
    Finds c (Found c (.glob module name)) (searchGlobs c ask module name external globs) := by
  induction globs generalizing external with
  | nil =>
    refine .pure fun r hr => ?_
    unfold soleExternal? at hr
    split at hr
    next base =>
      rw [← Option.some.inj hr]
      exact hexternal base (List.mem_singleton.2 rfl)
    next => cases hr
  | cons glob globs ih =>
    have hrest : ∀ glob ∈ globs, glob ∈ (c.module module).globs :=
      fun other hother => hglobs other (List.mem_cons_of_mem _ hother)
    have hglob : glob ∈ (c.module module).globs := hglobs glob List.mem_cons_self
    rw [searchGlobs]
    refine (hask _).bind (ih hexternal hrest) fun base hbase => ?_
    simp only
    split
    next target hmodule =>
      refine (finds_searchGlob hask hglob hbase hmodule).bind (ih hexternal hrest) ?_
      exact fun found hfound => .some hfound
    next =>
      refine ih (fun other hother => ?_) hrest
      unfold noteExternal at hother
      split at hother
      · exact hexternal other hother
      · rcases List.mem_append.1 hother with hold | hnew
        · exact hexternal other hold
        · rw [List.mem_singleton.1 hnew]
          exact .globOutside hglob hbase

theorem finds_globLookup (module : Nat) (name : String) :
    Finds c (Found c (.glob module name)) (globLookup c ask module name) := by
  intro memo hmemo
  rw [globLookup_apply]
  split
  next known hknown =>
    exact ⟨fun r hr => hmemo module name r (hknown.trans (congrArg some hr)), hmemo⟩
  next =>
    have hsearch : Finds c (Found c (.glob module name))
        (searchGlobs c ask module name [] (c.module module).globs) :=
      finds_searchGlobs hask (List.forall_mem_nil _) fun glob hglob => hglob
    obtain ⟨hanswer, hafter⟩ := hsearch _ (hmemo.start ⟨module, name⟩)
    exact ⟨hanswer, hafter.finish hanswer⟩

/-- Whatever `written` comes to, the path comes to. -/
def LeadsTo (c : Crate) (module : Nat) (path : ItemPath) (without : Option BindingSite)
    (written : String) : Prop :=
  ∀ r, Found c (.reexports written) r → Found c (.path module path without) r

theorem finds_resolveRelative {throughGlobs : GlobSearch}
    (hglobs : ∀ module name, Finds c (Found c (.glob module name)) (throughGlobs module name))
    (module : Nat) {first : String} (hfirst : first ∉ pathKeywords) (rest : List String)
    (without : Option BindingSite) :
    Finds c (LeadsTo c module ⟨false, first :: rest⟩ without)
      (resolveRelative c ask throughGlobs module first rest without) := by
  unfold resolveRelative
  split
  next hit hhit =>
    refine (hask _).bind .none fun target htarget => ?_
    exact .some fun r hr => .binding hfirst hhit htarget hr
  next =>
    split
    next hdeclares => exact .some fun r hr => .declared hfirst hdeclares hr
    next =>
      split
      next hcrate => exact .some fun r hr => .otherCrate hfirst hcrate hr
      next =>
        refine (hglobs module first).bind ?_ fun found hfound => ?_
        · simp only
          split
          next crate hcrates => exact .some fun r hr => .macroCrate hfirst (by simp [hcrates]) hr
          next => exact .none
        · exact .some fun r hr => .globbed hfirst hfound hr

theorem finds_resolveWritten {throughGlobs : GlobSearch}
    (hglobs : ∀ module name, Finds c (Found c (.glob module name)) (throughGlobs module name))
    (module : Nat) (path : ItemPath) (without : Option BindingSite) :
    Finds c (LeadsTo c module path without)
      (resolveWritten c ask throughGlobs module path without) := by
  obtain ⟨leading, segments⟩ := path
  cases segments with
  | nil => exact .none
  | cons first rest =>
    cases leading with
    | true =>
      refine .pure fun written hwritten => ?_
      simp only at hwritten
      split at hwritten
      next hcrate =>
        rw [← Option.some.inj hwritten]
        exact fun r hr => .outside hcrate hr
      next => cases hwritten
    | false =>
      by_cases hfirst : first ∈ pathKeywords
      · obtain rfl | rfl | rfl : first = "crate" ∨ first = "self" ∨ first = "super" := by
          simpa [pathKeywords] using hfirst
        · exact .some fun r hr => .crate hr
        · exact .some fun r hr => .self hr
        · refine .pure fun written hwritten => ?_
          obtain ⟨⟨up, segments⟩, hclimb, rfl⟩ := Option.map_eq_some_iff.1 hwritten
          exact fun r hr => .super hclimb hr
      · rw [resolveWritten_of_not_keyword hfirst]
        exact finds_resolveRelative hask hglobs module hfirst rest without

end Steps

/-- Whatever a search answers is found. -/
theorem finds_answer (budget : Nat) (question : Question) :
    Finds c (Found c question) (answer c budget question) := by
  -- each step finds if the questions that it asks are answered by what is found
  induction budget generalizing question with
  | zero => exact .none
  | succ budget ih =>
    have hglobs := finds_globLookup ih
    cases question with
    | path module path without =>
      refine (finds_resolveWritten ih hglobs module path without).bind .none fun written hwritten => ?_
      exact (finds_followReexports ih written).mono hwritten
    | reexports path => exact finds_followReexports ih path
    | glob module name => exact hglobs module name

theorem found_of_resolvePath {module : Nat} {path : ItemPath} {r : String}
    (h : resolvePath c module path = some r) : Found c (.path module path none) r :=
  (finds_answer searchBudget _ Memo.empty .empty).1 r h

end JobRoster.Crate
