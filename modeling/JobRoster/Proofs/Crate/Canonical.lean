import JobRoster.Proofs.Crate.Loading
import JobRoster.Proofs.Crate.Paths
import JobRoster.Proofs.Crate.Search

/-!
# What a path denotes is canonical

Whatever way a search takes, its answer starts at a crate that may start a path, and the answer to a
path meets no import on its way down the modules. Such a path denotes itself, in whatever module it
is written.
-/

namespace JobRoster.Crate

open Files Text Search

variable {c : Crate}

/-! ## Modules of a crate -/

theorem spelled_module (htree : ModuleTree c.modules) (module : Nat) :
    (c.module module).Spelled := by
  rcases module_mem_or_eq_new (c := c) module with hmem | hnew
  · exact htree.spelled _ hmem
  · rw [hnew]
    exact Module.spelled_new (by simp) none .crate

/-! ## What every answer has -/

/-- A property of the paths that a search starts from, and of those it extends. -/
structure ClosedUnderSearch (c : Crate) (K : String → Prop) : Prop where
  inside : ∀ module segments, K (c.canonicalIn module segments)
  outside : ∀ crate segments, c.isExtern crate = true → K (extend crate segments)
  macros : ∀ crate segments, crate ∈ c.macroCrates → K (extend crate segments)
  extended : ∀ path segments, K path → K (extend path segments)

/-- All answers have the property, and the answers to paths are settled. -/
structure Answers (c : Crate) (K : String → Prop) (ask : Ask) : Prop where
  path : ∀ module path without,
    Ensures K (fun r => K r ∧ Settled c r) (ask (.path module path without))
  reexports : ∀ path, K path → Ensures K (fun r => K r ∧ Settled c r) (ask (.reexports path))
  glob : ∀ module name, Ensures K K (ask (.glob module name))

section Steps

variable {K : String → Prop} {ask : Ask}

theorem ensures_followReexports (hK : ClosedUnderSearch c K) (hask : Answers c K ask)
    {path : String} (hpath : K path) :
    Ensures K (fun r => K r ∧ Settled c r) (followReexports c ask path) := by
  unfold followReexports
  split
  next hnone => exact .some ⟨hpath, settled_iff.2 hnone⟩
  next hit rest _ =>
    refine (hask.path _ _ _).bind .none fun target htarget => ?_
    exact hask.reexports _ (hK.extended target rest htarget.1)

theorem soleExternal?_holds (hK : ClosedUnderSearch c K) {name : String} {external : List String}
    (hexternal : ∀ crate ∈ external, K crate) :
    ∀ r, soleExternal? name external = some r → K r := by
  intro r hr
  unfold soleExternal? at hr
  split at hr
  next crate =>
    rw [← Option.some.inj hr]
    exact hK.extended crate [name] (hexternal crate (List.mem_singleton.2 rfl))
  · cases hr

theorem noteExternal_holds {external : List String} (hexternal : ∀ crate ∈ external, K crate)
    {base : String} (hbase : K base) : ∀ crate ∈ noteExternal c external base, K crate := by
  intro crate hcrate
  unfold noteExternal at hcrate
  split at hcrate
  · exact hexternal crate hcrate
  · rcases List.mem_append.1 hcrate with hold | hnew
    · exact hexternal crate hold
    · rwa [List.mem_singleton.1 hnew]

theorem ensures_searchGlob (hK : ClosedUnderSearch c K) (hask : Answers c K ask) (module : Nat)
    (name : String) {base : String} (hbase : K base) (target : Nat) :
    Ensures K K (searchGlob c ask module name base target) := by
  unfold searchGlob
  split
  · exact .some (hK.extended base [name] hbase)
  · split
    · exact .none
    · exact hask.glob target name

theorem ensures_searchGlobs (hK : ClosedUnderSearch c K) (hask : Answers c K ask) (module : Nat)
    (name : String) {external : List String} (hexternal : ∀ crate ∈ external, K crate)
    (globs : List Glob) : Ensures K K (searchGlobs c ask module name external globs) := by
  induction globs generalizing external with
  | nil => exact .pure (soleExternal?_holds hK hexternal)
  | cons glob globs ih =>
    rw [searchGlobs]
    refine (hask.path _ _ _).bind (ih hexternal) fun base hbase => ?_
    simp only
    split
    next target _ =>
      refine (ensures_searchGlob hK hask module name hbase.1 target).bind (ih hexternal) ?_
      exact fun found hfound => .some hfound
    next => exact ih (noteExternal_holds hexternal hbase.1)

theorem ensures_globLookup (hK : ClosedUnderSearch c K) (hask : Answers c K ask) (module : Nat)
    (name : String) : Ensures K K (globLookup c ask module name) := by
  intro memo hmemo
  rw [globLookup_apply]
  split
  next known hknown => exact ⟨fun r hr => hmemo _ r (hknown.trans (congrArg some hr)), hmemo⟩
  next =>
    obtain ⟨hanswer, hafter⟩ := ensures_searchGlobs hK hask module name
      (List.forall_mem_nil K) (c.module module).globs _ (hmemo.start ⟨module, name⟩)
    exact ⟨hanswer, hafter.finish _ hanswer⟩

theorem ensures_resolveRelative (hK : ClosedUnderSearch c K) (hask : Answers c K ask)
    {throughGlobs : GlobSearch} (hglobs : ∀ module name, Ensures K K (throughGlobs module name))
    (module : Nat) (first : String) (rest : List String) (without : Option BindingSite) :
    Ensures K K (resolveRelative c ask throughGlobs module first rest without) := by
  unfold resolveRelative
  split
  next hit _ =>
    refine (hask.path _ _ _).bind .none fun target htarget => ?_
    exact .some (hK.extended target rest htarget.1)
  next =>
    split
    · exact .some (hK.inside _ _)
    · split
      next hcrate => exact .some (hK.outside first rest hcrate)
      next =>
        refine (hglobs module first).bind ?_ fun found hfound => ?_
        · simp only
          split
          next crate hcrates => exact .some (hK.macros crate [first] (by simp [hcrates]))
          next => exact .none
        · exact .some (hK.extended found rest hfound)

theorem ensures_resolveWritten (hK : ClosedUnderSearch c K) (hask : Answers c K ask)
    {throughGlobs : GlobSearch} (hglobs : ∀ module name, Ensures K K (throughGlobs module name))
    (module : Nat) (path : ItemPath) (without : Option BindingSite) :
    Ensures K K (resolveWritten c ask throughGlobs module path without) := by
  unfold resolveWritten
  split
  · exact .none
  next first rest hsegments =>
    split
    · refine .pure fun r hr => ?_
      split at hr
      next hcrate =>
        rw [← Option.some.inj hr, hsegments]
        exact hK.outside first rest hcrate
      · cases hr
    · split
      · exact .some (hK.inside _ _)
      · split
        · exact .some (hK.inside _ _)
        · split
          · refine .pure fun r hr => ?_
            obtain ⟨⟨up, segments⟩, -, rfl⟩ := Option.map_eq_some_iff.1 hr
            exact hK.inside _ _
          · exact ensures_resolveRelative hK hask hglobs module first rest without

end Steps

theorem answers_answer {K : String → Prop} (hK : ClosedUnderSearch c K) (budget : Nat) :
    Answers c K (answer c budget) := by
  -- each step keeps the property if the questions that it asks are answered with it
  induction budget with
  | zero => exact ⟨fun _ _ _ => .none, fun _ _ => .none, fun _ _ => .none⟩
  | succ budget ih =>
    have hglobs := ensures_globLookup hK ih
    refine ⟨fun module path without => ?_, fun path hpath => ?_, fun module name => ?_⟩
    · refine (ensures_resolveWritten hK ih hglobs module path without).bind .none ?_
      exact fun canonical hcanonical => ensures_followReexports hK ih hcanonical
    · exact ensures_followReexports hK ih hpath
    · exact hglobs module name

/-- The answer to a path is settled, whatever is remembered. -/
theorem settled_of_answer {budget module : Nat} {path : ItemPath} {without : Option BindingSite}
    {memo : Memo} {r : String} (h : (answer c budget (.path module path without) memo).1 = some r) :
    Settled c r := by
  -- nothing is asked of the paths here, so the memo may hold any
  have hK : ClosedUnderSearch c fun _ => True :=
    ⟨fun _ _ => trivial, fun _ _ _ => trivial, fun _ _ _ => trivial, fun _ _ _ => trivial⟩
  exact (((answers_answer hK budget).path module path without memo fun _ _ _ => trivial).1 r h).2

/-! ## Answers start at a crate -/

/-- A path that starts at a crate which may start one. -/
def Rooted (c : Crate) (path : String) : Prop :=
  ∃ crate segments, c.isExtern crate = true ∧ path = extend crate segments

theorem closedUnderSearch_rooted (hc : c.NamesCrates) : ClosedUnderSearch c (Rooted c) where
  inside module segments := ⟨c.name, module ++ segments, hc.own, rfl⟩
  outside crate segments hcrate := ⟨crate, segments, hcrate, rfl⟩
  macros crate segments hcrate := ⟨crate, segments, hc.macros crate hcrate, rfl⟩
  extended path segments := by
    rintro ⟨crate, before, hcrate, rfl⟩
    exact ⟨crate, before ++ segments, hcrate, extend_extend _ _ _⟩

theorem rooted_of_resolvePath (hc : c.NamesCrates) {module : Nat} {path : ItemPath} {r : String}
    (h : resolvePath c module path = some r) : Rooted c r :=
  (((answers_answer (closedUnderSearch_rooted hc) searchBudget).path module path none Memo.empty
    Memo.holds_empty).1 r h).1

/-- The first segment of a path that starts at a crate is the crate. -/
theorem Rooted.splitSegments_eq (hc : c.NamesCrates) {path : String} (h : Rooted c path) :
    ∃ crate segments, splitSegments path = crate :: segments ∧ c.isExtern crate = true := by
  obtain ⟨crate, segments, hcrate, rfl⟩ := h
  have hcolon : ':' ∉ crate.toList := (hc.identifier crate hcrate).colon_not_mem
  cases segments with
  | nil => exact ⟨crate, [], splitSegments_of_not_mem hcolon, hcrate⟩
  | cons segment segments =>
    refine ⟨crate, splitSegments (joinSegments (segment :: segments)), ?_, hcrate⟩
    rw [extend_of_ne_nil _ (List.cons_ne_nil _ _),
      splitSegments_append (not_endsInColon_of_not_mem hcolon), splitSegments_of_not_mem hcolon]
    rfl

/-- The first segment tells whether a path leads into the crate. -/
theorem localSegments?_eq_some_iff_splitSegments (hname : IsIdentifier c.name) {path : String}
    {segments : List String} :
    localSegments? c path = some segments ↔
      splitSegments path = c.name :: segments ∧ segments ≠ [] := by
  have hcolon : ':' ∉ c.name.toList := hname.colon_not_mem
  have hsplit : ∀ rest, splitSegments (c.name ++ "::" ++ rest) = c.name :: splitSegments rest := by
    intro rest
    rw [splitSegments_append (not_endsInColon_of_not_mem hcolon), splitSegments_of_not_mem hcolon]
    rfl
  rw [localSegments?_eq_some_iff]
  constructor
  · rintro ⟨rest, rfl, rfl⟩
    exact ⟨hsplit rest, splitSegments_ne_nil rest⟩
  · rintro ⟨h, hne⟩
    have hpath : path = c.name ++ "::" ++ joinSegments segments := by
      rw [← joinSegments_splitSegments path, h, joinSegments_cons _ hne]
    refine ⟨_, hpath, ?_⟩
    rw [hpath, hsplit] at h
    exact (List.cons.inj h).2

/-! ## A canonical path denotes itself -/

/-- A canonical path as it can be written in any module: from the word `crate` if it starts at the
    crate, and from the outside if not. -/
def absolutePath (c : Crate) (path : String) : ItemPath :=
  match splitSegments path with
  | [] => ⟨true, []⟩
  | first :: rest => if first = c.name then ⟨false, "crate" :: rest⟩ else ⟨true, first :: rest⟩

theorem resolvePath_of_resolveWritten {module : Nat} {path : ItemPath} {r : String}
    (hwritten : ∀ ask throughGlobs,
      resolveWritten c ask throughGlobs module path none = pure (some r))
    (hsettled : Settled c r) : resolvePath c module path = some r := by
  have hanswer : answer c searchBudget (.path module path none) = pure (some r) := by
    rw [searchBudget, answer_succ, answerBy, hwritten, pure_bind]
    exact followReexports_of_settled hsettled _
  rw [resolvePath, hanswer]
  rfl

theorem resolvePath_absolutePath (hc : c.NamesCrates) {path : String} (hrooted : Rooted c path)
    (hsettled : Settled c path) (module : Nat) :
    resolvePath c module (absolutePath c path) = some path := by
  obtain ⟨crate, segments, hsplit, hcrate⟩ := hrooted.splitSegments_eq hc
  have hpath : extend crate segments = path := by
    rw [← joinSegments_splitSegments path, hsplit]
    rfl
  refine resolvePath_of_resolveWritten (fun ask throughGlobs => ?_) hsettled
  rw [absolutePath, hsplit]
  by_cases hown : crate = c.name
  · simp only [hown, if_true, resolveWritten]
    rw [canonicalIn_eq_extend, List.nil_append, ← hown, hpath]
    rfl
  · simp only [hown, if_false, resolveWritten, hcrate, if_true]
    exact congrArg (fun r => pure (some r)) hpath

/-- Where the names of crates are identifiers, what a path denotes starts at a crate that may start
    a path, meets no import on its way down the modules, and denotes itself from every module. -/
theorem resolvePath_canonical {sources : Sources} {name : String} {dependencies : List String}
    {root : FilePath} (hload : load sources name dependencies root = .ok c)
    (hname : IsIdentifier name)
    (hdependencies : ∀ dependency ∈ dependencies, IsIdentifier dependency)
    {module : Nat} {path : ItemPath} {r : String} (hr : resolvePath c module path = some r) :
    (∃ first, (splitSegments r).head? = some first ∧ c.isExtern first = true) ∧
      (∀ segments, splitSegments r = c.name :: segments → MeetsNoBinding c 0 segments) ∧
      ∀ module', resolvePath c module' (absolutePath c r) = some r := by
  have hc : c.NamesCrates := namesCrates_of_load hload hname hdependencies
  have hrooted : Rooted c r := rooted_of_resolvePath hc hr
  have hsettled : Settled c r := settled_of_answer hr
  refine ⟨?_, fun segments hsegments => ?_, resolvePath_absolutePath hc hrooted hsettled⟩
  · obtain ⟨crate, segments, hsplit, hcrate⟩ := hrooted.splitSegments_eq hc
    exact ⟨crate, by rw [hsplit]; rfl, hcrate⟩
  · have hown : IsIdentifier c.name := hc.identifier _ hc.own
    by_cases hne : segments = []
    · -- the crate itself: no segment is left to meet an import with
      subst hne
      intro passed segment rest site heq
      simp at heq
    · exact hsettled segments
        ((localSegments?_eq_some_iff_splitSegments hown).2 ⟨hsegments, hne⟩)

/-- A renamed import of a name that its module has through a glob. -/
theorem resolvePath_canonical_renamed :
    ∃ c, load (.ofTexts [(⟨"lib.rs"⟩, "mod a; mod b; mod c;"), (⟨"a.rs"⟩, "use crate::b::M as N;"),
        (⟨"b.rs"⟩, "use jobkit::*; use super::c::T as M;"), (⟨"c.rs"⟩, "struct T;")])
        "app" ["jobkit"] ⟨"lib.rs"⟩ = .ok c ∧
      IsIdentifier "app" ∧ (∀ dependency ∈ ["jobkit"], IsIdentifier dependency) ∧
      resolvePath c 0 ⟨false, ["a", "N"]⟩ = some "app::c::T" ∧
      (∃ first, (splitSegments "app::c::T").head? = some first ∧ c.isExtern first = true) ∧
      (∀ segments, splitSegments "app::c::T" = c.name :: segments → MeetsNoBinding c 0 segments) ∧
      ∀ module', resolvePath c module' (absolutePath c "app::c::T") = some "app::c::T" := by
  have hname : IsIdentifier "app" := by decide
  have hdependencies : ∀ dependency ∈ ["jobkit"], IsIdentifier dependency := by decide
  refine exists_loaded_of_any (fun c => resolvePath c 0 ⟨false, ["a", "N"]⟩ = some "app::c::T")
    (by decide +kernel) fun c hload htest => ?_
  have hr : resolvePath c 0 ⟨false, ["a", "N"]⟩ = some "app::c::T" := of_decide_eq_true htest
  exact ⟨hname, hdependencies, hr, resolvePath_canonical hload hname hdependencies hr⟩

end JobRoster.Crate
