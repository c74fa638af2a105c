import JobRoster.Proofs.Crate.Canonical

/-!
# Names and their qualified paths

A name can be written in its module, or from anywhere by the way down to the module. Where modules
have paths of their own and no import takes the name of a declaration, the way down leads to the
module. From there both come to the same if the module declares the name or imports it by name. A
name that only a glob import brings into the module has no qualified path: the way down never looks
at globs.
-/

namespace JobRoster.Crate

open Files Text Search

variable {c : Crate}

/-! ## Modules by their paths -/

/-- Paths of identifiers are told apart by their canonical form. -/
theorem canonicalIn_injective {path path' : List String} (h : ∀ name ∈ path, IsIdentifier name)
    (h' : ∀ name ∈ path', IsIdentifier name)
    (heq : c.canonicalIn path [] = c.canonicalIn path' []) : path = path' := by
  have hpaths : path ++ [] = path' ++ [] := by
    refine (canonicalIn_eq_iff ?_ ?_).1 heq
    · rw [List.append_nil]
      exact fun name hname => (h name hname).colon_not_mem
    · rw [List.append_nil]
      exact fun name hname => (h' name hname).colon_not_mem
  rwa [List.append_nil, List.append_nil] at hpaths

section Tree

variable (htree : ModuleTree c.modules) (hdistinct : (c.modules.map (·.path)).Nodup)
include htree hdistinct

/-- A module is the one of its path. -/
theorem moduleNamed?_path {index : Nat} {m : Module} (hm : c.modules[index]? = some m) :
    c.moduleNamed? (c.canonicalIn m.path []) = some index := by
  cases hfound : c.moduleNamed? (c.canonicalIn m.path []) with
  | none =>
    have := lastIndex?_eq_none_iff.1 hfound m (List.mem_of_getElem? hm)
    simp at this
  | some found =>
    obtain ⟨m', hm', hpath⟩ := exists_module_of_moduleNamed? hfound
    have hsame : m'.path = m.path :=
      canonicalIn_injective (htree.spelled m' (List.mem_of_getElem? hm')).path
        (htree.spelled m (List.mem_of_getElem? hm)).path hpath
    have hlt : found < (c.modules.map (·.path)).length := by
      rw [List.length_map]
      exact (List.getElem?_eq_some_iff.1 hm').1
    refine congrArg some ((List.getElem?_inj hlt hdistinct).1 ?_)
    rw [List.getElem?_map, List.getElem?_map, hm, hm', Option.map_some, Option.map_some, hsame]

/-- The way down along a module's path leads to the module. -/
theorem reexportAlong?_path_append
    (hseparate : ∀ m ∈ c.modules, ∀ name ∈ m.names, m.binds name = false)
    {index : Nat} {m : Module} (hm : c.modules[index]? = some m) (segments : List String) :
    reexportAlong? c 0 (m.path ++ segments) = reexportAlong? c index segments := by
  -- a module is declared by one that comes before it
  induction index using Nat.strongRecOn generalizing m segments with
  | ind index ih =>
    by_cases hindex : index = 0
    · subst hindex
      obtain ⟨root, hroot, hpath⟩ := htree.root
      obtain rfl : root = m := Option.some.inj (hroot.symm.trans hm)
      rw [hpath, List.nil_append]
    · obtain ⟨parent, p, name, hlt, hp, -, hpath, hname⟩ := htree.below index m hm hindex
      have hfree : bindingOf? c parent name none = none := by
        rw [bindingOf?_eq_none_iff, module_of_getElem? hp]
        exact hseparate p (List.mem_of_getElem? hp) name (List.contains_iff_mem.1 hname)
      have hnext : c.moduleNamed? (c.canonicalIn ((c.module parent).path ++ [name]) []) =
          some index := by
        rw [module_of_getElem? hp, ← hpath]
        exact moduleNamed?_path htree hdistinct hm
      calc reexportAlong? c 0 (m.path ++ segments)
          = reexportAlong? c 0 (p.path ++ name :: segments) := by
            rw [hpath, List.append_assoc, List.singleton_append]
        _ = reexportAlong? c parent (name :: segments) := ih parent hlt hp _
        _ = reexportAlong? c index segments := by rw [reexportAlong?, hfree, hnext]

/-- Along the way down to a name in a module, the one import that can be met is the module's own of
    that name. -/
theorem reexportAlong?_qualified
    (hseparate : ∀ m ∈ c.modules, ∀ name ∈ m.names, m.binds name = false)
    {index : Nat} {m : Module} (hm : c.modules[index]? = some m) {name : String}
    (hname : IsIdentifier name) :
    (localSegments? c (c.canonicalIn m.path [name])).bind (reexportAlong? c 0) =
      (bindingOf? c index name none).map (·, []) := by
  have hident : ∀ segment ∈ m.path ++ [name], IsIdentifier segment := List.forall_mem_append.2
    ⟨(htree.spelled m (List.mem_of_getElem? hm)).path, List.forall_mem_singleton.2 hname⟩
  have hcolon : ∀ segment ∈ m.path ++ [name], ':' ∉ segment.toList :=
    fun segment hsegment => (hident segment hsegment).colon_not_mem
  rw [canonicalIn_eq_extend, localSegments?_extend (by simp) hcolon, Option.bind_some,
    reexportAlong?_path_append htree hdistinct hseparate hm, reexportAlong?]
  cases bindingOf? c index name none with
  | some hit => rfl
  | none => simp only [reexportAlong?]; split <;> rfl

end Tree

/-! ## One step to an import -/
/-- What an import at the end of a path names is canonical already. -/
theorem followReexports_of_hit {path : String} {hit : BindingHit}
    (h : (localSegments? c path).bind (reexportAlong? c 0) = some (hit, [])) (budget : Nat) :
    followReexports c (answer c (budget + 1)) path =
      answer c (budget + 1) (.path hit.site.module hit.target (some hit.site)) := by
  rw [followReexports, h]
  exact bind_eq_self rfl fun memo target htarget =>
    followReexports_of_settled (settled_of_answer htarget) _

/-- A name that an import gives is searched for through the import's target alone. -/
theorem answer_name_of_bindingOf? {module : Nat} {name : String} (hname : name ∉ pathKeywords)
    {hit : BindingHit} (h : bindingOf? c module name none = some hit) (budget : Nat) :
    answer c (budget + 1) (.path module ⟨false, [name]⟩ none) =
      answer c budget (.path hit.site.module hit.target (some hit.site)) := by
  rw [answer_succ, answerBy, resolveWritten_of_not_keyword hname]
  unfold resolveRelative
  simp only [h, extend_nil, Option.map_id_fun', id_eq, bind_pure]
  exact bind_eq_self rfl fun memo target htarget =>
    followReexports_of_settled (settled_of_answer htarget) _

theorem answer_name_of_declares {module : Nat} {name : String} (hname : name ∉ pathKeywords)
    (hfree : bindingOf? c module name none = none)
    (hdeclares : (c.module module).declares name = true) (budget : Nat) :
    answer c (budget + 1) (.path module ⟨false, [name]⟩ none) =
      followReexports c (answer c budget) (c.canonicalIn (c.module module).path [name]) := by
  rw [answer_succ, answerBy, resolveWritten_of_not_keyword hname]
  unfold resolveRelative
  simp only [hfree, hdeclares, if_true, pure_bind]

/-! ## Names and qualified paths -/

/-- The path to a name by the way down to a module. -/
def qualified (m : Module) (name : String) : ItemPath :=
  ⟨false, "crate" :: m.path ++ [name]⟩

theorem answer_qualified (budget module : Nat) (m : Module) (name : String) :
    answer c (budget + 1) (.path module (qualified m name) none) =
      followReexports c (answer c budget) (c.canonicalIn m.path [name]) := by
  rw [answer_succ, answerBy]
  rfl

/-- A name that a module declares or imports by name denotes what its qualified path does, from
    every module. Of any other name the qualified path denotes itself, whatever the module's glob
    imports bring in. -/
theorem resolvePath_qualified {sources : Sources} {crate : String} {dependencies : List String}
    {root : FilePath} (hload : load sources crate dependencies root = .ok c)
    (hdistinct : (c.modules.map (·.path)).Nodup)
    (hseparate : ∀ m ∈ c.modules, ∀ name ∈ m.names, m.binds name = false)
    {module : Nat} (hmodule : module < c.modules.length) {name : String}
    (hname : name ∉ pathKeywords) :
    ((c.module module).declares name = true ∨ (c.module module).binds name = true → ∀ other,
      resolvePath c other (qualified (c.module module) name) =
        resolvePath c module ⟨false, [name]⟩) ∧
    ((c.module module).declares name = false → (c.module module).binds name = false →
      IsIdentifier name → ∀ other, resolvePath c other (qualified (c.module module) name) =
        some (c.canonicalIn (c.module module).path [name])) := by
  have htree : ModuleTree c.modules := moduleTree_of_load hload
  have hm : c.modules[module]? = some (c.module module) := by
    rw [module_of_getElem? (List.getElem?_eq_getElem hmodule), List.getElem?_eq_getElem hmodule]
  refine ⟨fun hhas other => ?_, fun _ hfree hident other => ?_⟩
  · rw [resolvePath, resolvePath, searchBudget, answer_qualified]
    cases hbinding : bindingOf? c module name none with
    | none =>
      -- the name is declared: both are searched for from the same canonical path
      have hfree : (c.module module).binds name = false := bindingOf?_eq_none_iff.1 hbinding
      have hdeclares : (c.module module).declares name = true :=
        hhas.resolve_right (by simp [hfree])
      rw [answer_name_of_declares hname hbinding hdeclares]
    | some hit =>
      -- the name is imported: the way down ends at the binding that the name itself comes to
      have hbinds : (c.module module).binds name = true := by
        rw [← Bool.not_eq_false, ← bindingOf?_eq_none_iff, hbinding]
        exact Option.some_ne_none hit
      have hident : IsIdentifier name :=
        (htree.spelled _ (List.mem_of_getElem? hm)).isIdentifier_of_binds hbinds
      have halong := reexportAlong?_qualified htree hdistinct hseparate hm hident
      rw [hbinding] at halong
      rw [answer_name_of_bindingOf? hname hbinding, followReexports_of_hit halong]
  · have hsettled : Settled c (c.canonicalIn (c.module module).path [name]) := by
      rw [settled_iff, reexportAlong?_qualified htree hdistinct hseparate hm hident,
        bindingOf?_eq_none_iff.2 hfree]
      rfl
    rw [resolvePath, searchBudget, answer_qualified, followReexports_of_settled hsettled]
    rfl

/-- A module that renames what it imports, beside a glob import. -/
theorem resolvePath_qualified_renamed :
    ∃ c, load (.ofTexts [(⟨"lib.rs"⟩, "mod prelude; mod jobs;"),
        (⟨"prelude.rs"⟩, "pub use jobkit::*; pub use super::jobs::Nightly as Job;"),
        (⟨"jobs.rs"⟩, "use super::prelude::*; pub struct Nightly;")])
        "app" ["jobkit"] ⟨"lib.rs"⟩ = .ok c ∧
      (c.modules.map (·.path)).Nodup ∧ (∀ m ∈ c.modules, ∀ name ∈ m.names, m.binds name = false) ∧
      1 < c.modules.length ∧ "Job" ∉ pathKeywords ∧ "every" ∉ pathKeywords ∧
      resolvePath c 1 ⟨false, ["Job"]⟩ = some "app::jobs::Nightly" ∧
      (∀ other, resolvePath c other (qualified (c.module 1) "Job") = some "app::jobs::Nightly") ∧
      ∀ other, resolvePath c other (qualified (c.module 1) "every") =
        some (c.canonicalIn (c.module 1).path ["every"]) := by
  refine exists_loaded_of_any (fun c => (c.modules.map (·.path)).Nodup ∧
      (∀ m ∈ c.modules, ∀ name ∈ m.names, m.binds name = false) ∧ 1 < c.modules.length ∧
      (c.module 1).binds "Job" = true ∧ (c.module 1).declares "every" = false ∧
      (c.module 1).binds "every" = false ∧
      resolvePath c 1 ⟨false, ["Job"]⟩ = some "app::jobs::Nightly")
    (by decide +kernel) fun c hload htest => ?_
  obtain ⟨hdistinct, hseparate, hlt, hbinds, hundeclared, hfree, hr⟩ := of_decide_eq_true htest
  have hjob : "Job" ∉ pathKeywords := by decide
  have hevery : "every" ∉ pathKeywords := by decide
  have hsame := (resolvePath_qualified hload hdistinct hseparate hlt hjob).1 (.inr hbinds)
  have hitself := (resolvePath_qualified hload hdistinct hseparate hlt hevery).2 hundeclared hfree
    (by decide)
  exact ⟨hdistinct, hseparate, hlt, hjob, hevery, hr, fun other => (hsame other).trans hr, hitself⟩

/-- A name that a glob import brings into a module has no qualified path. -/
theorem resolvePath_qualified_ne_of_glob :
    ∃ c, load (.ofTexts [(⟨"lib.rs"⟩, "mod prelude;"), (⟨"prelude.rs"⟩, "pub use jobkit::*;")])
        "app" ["jobkit"] ⟨"lib.rs"⟩ = .ok c ∧
      (c.modules.map (·.path)).Nodup ∧ (∀ m ∈ c.modules, ∀ name ∈ m.names, m.binds name = false) ∧
      c.macroCrates = [] ∧ "recurring_job" ∉ pathKeywords ∧ c.isExtern "recurring_job" = false ∧
      resolvePath c 1 ⟨false, ["recurring_job"]⟩ = some "jobkit::recurring_job" ∧
      resolvePath c 0 (qualified (c.module 1) "recurring_job") =
        some "app::prelude::recurring_job" :=
  exists_loaded_of_decide (by decide +kernel)

end JobRoster.Crate
