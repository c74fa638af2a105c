import Mathlib.Data.List.Find
import JobRoster.Proofs.Crate.Canonical
import JobRoster.Proofs.Crate.Direct

/-!
# Imports under a name

In a crate without glob imports, a name that an import gives to a path denotes what the path does,
and so do the two with the same segments behind them. The import is expanded on its own, before the
segments behind the name are looked at, and written out in the longer path: that the two ways meet
follows from what a canonical path denotes with segments behind it.
-/

namespace JobRoster.Crate

open Files Text Search

variable {c : Crate}

/-! ## Crates without glob imports -/

theorem globs_module_eq_nil (h : ∀ m ∈ c.modules, m.globs = []) (module : Nat) :
    (c.module module).globs = [] := by
  rcases module_mem_or_eq_new (c := c) module with hmem | hnew
  · exact h _ hmem
  · rw [hnew]
    rfl

/-- Without globs a look-up finds nothing, and nothing is remembered as found. -/
theorem gives_globLookup_none {module : Nat} (h : (c.module module).globs = []) (ask : Ask)
    (name : String) :
    Gives (Memo.Holds fun _ => False) (globLookup c ask module name) none := by
  intro memo hmemo
  rw [globLookup_apply]
  cases hfind : memo.find? ⟨module, name⟩ with
  | some known =>
    cases known with
    | none => exact ⟨rfl, hmemo⟩
    | some found => exact (hmemo _ _ hfind).elim
  | none =>
    rw [h]
    exact ⟨rfl, (hmemo.start _).finish _ nofun⟩

theorem gives_answer_direct (hglobs : ∀ m ∈ c.modules, m.globs = []) (hmacros : c.macroCrates = [])
    (budget module : Nat) (path : ItemPath) (without : Option BindingSite) :
    Gives (Memo.Holds fun _ => False) (answer c budget (.path module path without))
      (direct c budget (.path module path without)) := by
  have hD : ClosedUnderImports c fun question => ∀ module name, question ≠ .glob module name :=
    ⟨by simp, by simp⟩
  refine gives_direct hD (by simp) (answer c) (fun budget => globLookup c (answer c budget))
    (fun _ => rfl) (fun _ _ => rfl) ?_ budget _ (by simp)
  intro budget module path without _ _
  refine ⟨fun name => ?_, hmacros⟩
  exact gives_globLookup_none (globs_module_eq_nil hglobs module) _ name

theorem resolvePath_eq_direct (hglobs : ∀ m ∈ c.modules, m.globs = [])
    (hmacros : c.macroCrates = []) (module : Nat) (path : ItemPath) :
    resolvePath c module path = direct c searchBudget (.path module path none) :=
  (gives_answer_direct hglobs hmacros searchBudget module path none Memo.empty Memo.holds_empty).1

theorem settled_of_direct (hglobs : ∀ m ∈ c.modules, m.globs = []) (hmacros : c.macroCrates = [])
    {budget module : Nat} {path : ItemPath} {without : Option BindingSite} {r : String}
    (h : direct c budget (.path module path without) = some r) : Settled c r := by
  have hgives := gives_answer_direct hglobs hmacros budget module path without
  exact settled_of_answer ((hgives Memo.empty Memo.holds_empty).1.trans h)

/-! ## Paths that segments can be put behind -/

/-- A separator behind the path is read as one. -/
def Extensible (c : Crate) (path : String) : Prop :=
  path = c.name ∨ ¬ EndsInColon path

theorem extensible_extend {start : String} (hstart : Extensible c start) {rest : List String}
    (h : ∀ segment ∈ rest, IsIdentifier segment) : Extensible c (extend start rest) := by
  cases rest with
  | nil => exact hstart
  | cons segment rest =>
    have hrest : joinSegments (segment :: rest) ≠ "" :=
      joinSegments_ne_empty (h segment List.mem_cons_self).ne_empty rest
    refine .inr ?_
    rw [extend_of_ne_nil _ (List.cons_ne_nil _ _), endsInColon_append hrest]
    exact not_endsInColon_joinSegments h

theorem extensible_of_isIdentifier {name : String} (h : IsIdentifier name) : Extensible c name :=
  .inr (not_endsInColon_of_not_mem h.colon_not_mem)

/-- How a path ends depends on what is put behind it alone. -/
theorem endsInColon_extend (path path' : String) {rest : List String} (hne : rest ≠ []) :
    EndsInColon (extend path rest) ↔ EndsInColon (extend path' rest) := by
  have h : "::" ++ joinSegments rest ≠ "" := by simp
  rw [extend_of_ne_nil _ hne, extend_of_ne_nil _ hne, String.append_assoc, String.append_assoc,
    endsInColon_append h, endsInColon_append h]

theorem Extensible.not_endsInColon {path : String} (hpath : Extensible c path)
    {segments : List String} (h : localSegments? c path = some segments) : ¬ EndsInColon path := by
  refine hpath.resolve_left ?_
  rintro rfl
  rw [localSegments?_name] at h
  cases h

/-- What is put behind a path in the crate is put behind its segments. -/
theorem localSegments?_extend_of_ne_nil {path : String} (hpath : Extensible c path)
    {segments rest : List String} (h : localSegments? c path = some segments) (hne : rest ≠ []) :
    localSegments? c (extend path rest) = some (segments ++ splitSegments (joinSegments rest)) := by
  have hend : ¬ EndsInColon path := hpath.not_endsInColon h
  obtain ⟨tail, rfl, rfl⟩ := localSegments?_eq_some_iff.1 h
  -- a colon at the end would be read as the first of the separator's two
  have htail : ¬ EndsInColon tail := by
    intro htail
    have hne : tail ≠ "" := by
      rintro rfl
      simp [EndsInColon] at htail
    exact hend ((endsInColon_append hne).2 htail)
  refine localSegments?_eq_some_iff.2 ⟨tail ++ "::" ++ joinSegments rest, ?_, ?_⟩
  · rw [extend_of_ne_nil _ hne]
    simp only [String.append_assoc]
  · exact splitSegments_append htail _

/-! ## Following imports with segments behind -/

theorem exists_append_of_reexportAlong? {module : Nat} {segments rest : List String}
    {hit : BindingHit} (h : reexportAlong? c module segments = some (hit, rest)) :
    ∃ passed, segments = passed ++ rest := by
  obtain ⟨passed, name, _, rfl, -⟩ := exists_name_of_reexportAlong? h
  exact ⟨passed ++ [name], by simp⟩

theorem reexportAlong?_append {module : Nat} {segments rest : List String} {hit : BindingHit}
    (h : reexportAlong? c module segments = some (hit, rest)) (more : List String) :
    reexportAlong? c module (segments ++ more) = some (hit, rest ++ more) := by
  induction segments generalizing module with
  | nil => cases h
  | cons segment segments ih =>
    rw [List.cons_append, reexportAlong?]
    rw [reexportAlong?] at h
    split at h
    · obtain ⟨rfl, rfl⟩ := Prod.mk.inj (Option.some.inj h)
      rfl
    · split at h
      · exact ih h
      · cases h

/-- An import along a path is met as well with segments behind the path. -/
theorem exists_reexportAlong?_extend {path : String} (hpath : Extensible c path)
    {hit : BindingHit} {rest : List String}
    (h : (localSegments? c path).bind (reexportAlong? c 0) = some (hit, rest))
    (more : List String) :
    ∃ behind, (localSegments? c (extend path more)).bind (reexportAlong? c 0) =
      some (hit, rest ++ behind) ∧ ∀ other, extend other behind = extend other more := by
  by_cases hne : more = []
  · subst hne
    exact ⟨[], by rw [extend_nil, h, List.append_nil], fun _ => rfl⟩
  · obtain ⟨segments, hlocal, halong⟩ := Option.bind_eq_some_iff.1 h
    refine ⟨splitSegments (joinSegments more), ?_, fun other => ?_⟩
    · rw [localSegments?_extend_of_ne_nil hpath hlocal hne, Option.bind_some]
      exact reexportAlong?_append halong _
    · rw [extend_of_ne_nil _ hne, extend_of_ne_nil _ (splitSegments_ne_nil _),
        joinSegments_splitSegments]

/-- What is left of a path behind an import can be put behind the target of the import. -/
theorem extensible_extend_of_reexportAlong? {path target : String} (hpath : Extensible c path)
    (htarget : Extensible c target) {hit : BindingHit} {rest : List String}
    (h : (localSegments? c path).bind (reexportAlong? c 0) = some (hit, rest)) :
    Extensible c (extend target rest) := by
  by_cases hne : rest = []
  · rwa [hne, extend_nil]
  · obtain ⟨segments, hlocal, halong⟩ := Option.bind_eq_some_iff.1 h
    obtain ⟨passed, rfl⟩ := exists_append_of_reexportAlong? halong
    have hend : ¬ EndsInColon path := hpath.not_endsInColon hlocal
    rw [eq_extend_of_localSegments? hlocal, ← extend_extend] at hend
    exact .inr fun htail => hend ((endsInColon_extend _ _ hne).1 htail)

/-! ## What is found can be extended -/

/-- The question is about a path of identifiers, or about one that segments can be put behind. -/
def Question.Spelled (c : Crate) : Question → Prop
  | .path _ written _ => ∀ segment ∈ written.segments, IsIdentifier segment
  | .reexports canonical => Extensible c canonical
  | .glob _ _ => True

section Extensible

theorem extensible_canonicalIn (htree : ModuleTree c.modules) (module : Nat) :
    Extensible c (c.canonicalIn (c.module module).path []) := by
  rw [canonicalIn_eq_extend, List.append_nil]
  exact extensible_extend (.inl rfl) (spelled_module htree module).path

theorem spelled_target (htree : ModuleTree c.modules) {module : Nat} {name : String}
    {without : Option BindingSite} {hit : BindingHit}
    (h : bindingOf? c module name without = some hit) :
    ∀ segment ∈ hit.target.segments, IsIdentifier segment := by
  obtain ⟨-, binding, hbinding, htarget⟩ := exists_getElem?_of_bindingOf? h
  rw [← htarget]
  exact (spelled_module htree module).target binding (List.mem_of_getElem? hbinding)

theorem exists_append_of_climb? {module up : Nat} {segments rest : List String}
    (h : climb? c module segments = some (up, rest)) : ∃ passed, segments = passed ++ rest := by
  fun_induction climb? c module segments with
  | case1 module segments parent _ ih =>
    obtain ⟨passed, rfl⟩ := ih h
    exact ⟨"super" :: passed, rfl⟩
  | case2 => cases h
  | case3 module segments =>
    obtain ⟨-, rfl⟩ := Prod.mk.inj (Option.some.inj h)
    exact ⟨[], rfl⟩

theorem spelled_of_climb? {module up : Nat} {path segments : List String}
    (hclimb : climb? c module path = some (up, segments))
    (h : ∀ segment ∈ path, IsIdentifier segment) : ∀ segment ∈ segments, IsIdentifier segment := by
  obtain ⟨passed, rfl⟩ := exists_append_of_climb? hclimb
  exact (List.forall_mem_append.1 h).2

variable {reply : Reply} (htree : ModuleTree c.modules)
  (hreply : ∀ question r, question.Spelled c → reply question = some r → Extensible c r)
include htree hreply

theorem extensible_of_followBy {path r : String} (hpath : Extensible c path)
    (h : followBy c reply path = some r) : Extensible c r := by
  unfold followBy at h
  split at h
  · exact Option.some.inj h ▸ hpath
  next hit rest halong =>
    obtain ⟨target, htarget, hrest⟩ := Option.bind_eq_some_iff.1 h
    obtain ⟨site, name, hhit⟩ := exists_bindingOf?_of_reexport halong
    have htarget' : Extensible c target :=
      hreply (.path _ hit.target _) target (spelled_target htree hhit) htarget
    exact hreply (.reexports _) r (extensible_extend_of_reexportAlong? hpath htarget' halong) hrest

theorem extensible_of_nameBy {module : Nat} {name : String} {without : Option BindingSite}
    (hname : IsIdentifier name) {r : String} (h : nameBy c reply module name without = some r) :
    Extensible c r := by
  unfold nameBy at h
  split at h
  next hit hhit => exact hreply (.path _ hit.target _) r (spelled_target htree hhit) h
  next =>
    split_ifs at h
    · obtain rfl := Option.some.inj h
      rw [canonicalIn_eq_extend]
      exact extensible_extend (.inl rfl) (List.forall_mem_append.2
        ⟨(spelled_module htree module).path, List.forall_mem_singleton.2 hname⟩)
    · obtain rfl := Option.some.inj h
      exact extensible_of_isIdentifier hname

theorem extensible_of_startBy {module : Nat} {path : ItemPath} {without : Option BindingSite}
    (hpath : ∀ segment ∈ path.segments, IsIdentifier segment) {start : String} {rest : List String}
    (h : startBy c reply module path without = some (start, rest)) :
    Extensible c start ∧ ∀ segment ∈ rest, IsIdentifier segment := by
  unfold startBy at h
  split at h
  · cases h
  next first tail hsegments =>
    rw [hsegments] at hpath
    obtain ⟨hfirst, htail⟩ := List.forall_mem_cons.1 hpath
    -- from the outside, from the crate, from the module, from above it, and from a name
    split_ifs at h
    · obtain ⟨rfl, rfl⟩ := Prod.mk.inj (Option.some.inj h)
      exact ⟨extensible_of_isIdentifier hfirst, htail⟩
    · obtain ⟨rfl, rfl⟩ := Prod.mk.inj (Option.some.inj h)
      exact ⟨.inl rfl, htail⟩
    · obtain ⟨rfl, rfl⟩ := Prod.mk.inj (Option.some.inj h)
      exact ⟨extensible_canonicalIn htree module, htail⟩
    · obtain ⟨⟨up, segments⟩, hclimb, hstart⟩ := Option.map_eq_some_iff.1 h
      obtain ⟨rfl, rfl⟩ := Prod.mk.inj hstart
      rw [← hsegments] at hpath
      exact ⟨extensible_canonicalIn htree up, spelled_of_climb? hclimb hpath⟩
    · obtain ⟨name, hname, hstart⟩ := Option.map_eq_some_iff.1 h
      obtain ⟨rfl, rfl⟩ := Prod.mk.inj hstart
      exact ⟨extensible_of_nameBy htree hreply hfirst hname, htail⟩

theorem extensible_of_writtenBy {module : Nat} {path : ItemPath} {without : Option BindingSite}
    (hpath : ∀ segment ∈ path.segments, IsIdentifier segment) {r : String}
    (h : writtenBy c reply module path without = some r) : Extensible c r := by
  obtain ⟨⟨start, rest⟩, hstart, rfl⟩ := Option.map_eq_some_iff.1 h
  obtain ⟨hext, hrest⟩ := extensible_of_startBy htree hreply hpath hstart
  exact extensible_extend hext hrest

end Extensible

theorem extensible_of_direct (htree : ModuleTree c.modules) {budget : Nat} (question : Question)
    {r : String} (hquestion : question.Spelled c) (h : direct c budget question = some r) :
    Extensible c r := by
  induction budget generalizing question r with
  | zero => cases h
  | succ budget ih =>
    cases question with
    | path module path without =>
      obtain ⟨written, hwritten, hfollow⟩ := Option.bind_eq_some_iff.1 h
      have hext := extensible_of_writtenBy htree (fun question _ => ih question) hquestion hwritten
      exact extensible_of_followBy htree (fun question _ => ih question) hext hfollow
    | reexports path =>
      exact extensible_of_followBy htree (fun question _ => ih question) hquestion h
    | glob module name => cases h

/-- Imports along a path can be followed before segments are put behind it or after. -/
theorem denotes_extend_iff (htree : ModuleTree c.modules) {path target r : String}
    (hpath : Extensible c path) (htarget : Denotes c (.reexports path) target)
    (rest : List String) :
    Denotes c (.reexports (extend path rest)) r ↔
      Denotes c (.reexports (extend target rest)) r := by
  obtain ⟨budget, htarget⟩ := htarget
  -- the budget that the path needs goes down with every import along it
  induction budget generalizing path target with
  | zero => cases htarget
  | succ budget ih =>
    rw [direct, followBy] at htarget
    cases halong : (localSegments? c path).bind (reexportAlong? c 0) with
    | none =>
      rw [halong] at htarget
      rw [Option.some.inj htarget]
    | some found =>
      obtain ⟨hit, behind⟩ := found
      rw [halong] at htarget
      obtain ⟨through, hthrough, hbehind⟩ := Option.bind_eq_some_iff.1 htarget
      obtain ⟨site, name, hhit⟩ := exists_bindingOf?_of_reexport halong
      have hext : Extensible c through :=
        extensible_of_direct htree (.path _ hit.target _) (spelled_target htree hhit) hthrough
      have hext' : Extensible c (extend through behind) :=
        extensible_extend_of_reexportAlong? hpath hext halong
      -- the longer path meets the same import, and goes on behind its target with all that is left
      obtain ⟨more, hmore, hsame⟩ := exists_reexportAlong?_extend hpath halong rest
      calc Denotes c (.reexports (extend path rest)) r
          ↔ Denotes c (.reexports (extend through (behind ++ more))) r := by
            rw [denotes_reexports_of_some hmore]
            constructor
            · rintro ⟨other, hother, hr⟩
              rwa [hother.unique ⟨budget, hthrough⟩] at hr
            · exact fun hr => ⟨through, ⟨budget, hthrough⟩, hr⟩
        _ ↔ Denotes c (.reexports (extend (extend through behind) rest)) r := by
            rw [← extend_extend, hsame]
        _ ↔ Denotes c (.reexports (extend target rest)) r := ih hext' hbehind

/-! ## Segments behind a path as it is written -/

theorem climb?_append {module up : Nat} {segments rest : List String}
    (h : climb? c module segments = some (up, rest)) {more : List String}
    (hmore : more.head? ≠ some "super") :
    climb? c module (segments ++ more) = some (up, rest ++ more) := by
  fun_induction climb? c module segments with
  | case1 module segments parent hparent ih =>
    rw [List.cons_append, climb?, hparent]
    exact ih h
  | case2 => cases h
  | case3 module segments hsuper =>
    obtain ⟨rfl, rfl⟩ := Prod.mk.inj (Option.some.inj h)
    -- no word `super` is left, so the climb ends here unless `more` starts with one
    refine climb?.eq_2 _ _ _ fun rest heq => ?_
    cases segments with
    | nil =>
      rw [List.nil_append] at heq
      simp [heq] at hmore
    | cons first tail =>
      obtain ⟨rfl, -⟩ := List.cons.inj heq
      exact hsuper tail rfl

theorem startBy_append {reply : Reply} {module : Nat} {path : ItemPath}
    {without : Option BindingSite} {start : String} {rest : List String}
    (h : startBy c reply module path without = some (start, rest)) {more : List String}
    (hmore : more.head? ≠ some "super") :
    startBy c reply module ⟨path.leadingColon, path.segments ++ more⟩ without =
      some (start, rest ++ more) := by
  unfold startBy at h ⊢
  split at h
  · cases h
  next first tail hsegments =>
    simp only [hsegments, List.cons_append]
    split_ifs at h ⊢
    · obtain ⟨rfl, rfl⟩ := Prod.mk.inj (Option.some.inj h)
      rfl
    · obtain ⟨rfl, rfl⟩ := Prod.mk.inj (Option.some.inj h)
      rfl
    · obtain ⟨rfl, rfl⟩ := Prod.mk.inj (Option.some.inj h)
      rfl
    · obtain ⟨⟨up, segments⟩, hclimb, hstart⟩ := Option.map_eq_some_iff.1 h
      obtain ⟨rfl, rfl⟩ := Prod.mk.inj hstart
      rw [← List.cons_append, ← hsegments, climb?_append hclimb hmore]
      rfl
    · obtain ⟨name, hname, hstart⟩ := Option.map_eq_some_iff.1 h
      obtain ⟨rfl, rfl⟩ := Prod.mk.inj hstart
      rw [hname]
      rfl

/-- The first binding of a name is the one that is looked up. -/
theorem exists_bindingOf?_of_find? {module : Nat} {name : String} {binding : Binding}
    (h : (c.module module).bindings.find? (·.name = name) = some binding) :
    ∃ index, (c.module module).bindings[index]? = some binding ∧
      bindingOf? c module name none = some ⟨⟨module, index⟩, binding.target⟩ := by
  rw [← List.zipIdx_map_fst 0 (c.module module).bindings, List.find?_map,
    Option.map_eq_some_iff] at h
  obtain ⟨⟨binding, index⟩, hfind, rfl⟩ := h
  refine ⟨index, List.mem_zipIdx_iff_getElem?.1 (List.mem_of_find?_eq_some hfind), ?_⟩
  have htest : (fun entry : Binding × Nat => entry.1.name = name &&
      (none : Option BindingSite) ≠ some ⟨module, entry.2⟩) =
        (fun binding : Binding => decide (binding.name = name)) ∘ Prod.fst := by
    funext entry
    simp
  exact Option.map_eq_some_iff.2 ⟨(binding, index), htest ▸ hfind, rfl⟩

/-- A binding that is left out matters to its own name alone. -/
theorem bindingOf?_without {module index : Nat} {binding : Binding}
    (hbinding : (c.module module).bindings[index]? = some binding) {name : String}
    (hne : name ≠ binding.name) :
    bindingOf? c module name (some ⟨module, index⟩) = bindingOf? c module name none := by
  unfold bindingOf?
  congr 1
  refine List.find?_congr fun ⟨other, place⟩ hmem => ?_
  by_cases hplace : place = index
  · subst hplace
    have hother := List.mem_zipIdx_iff_getElem?.1 hmem
    obtain rfl : other = binding := Option.some.inj (hother.symm.trans hbinding)
    simp [Ne.symm hne]
  · simp [Ne.symm hplace]

theorem startBy_without {reply : Reply} {module index : Nat} {binding : Binding}
    (hbinding : (c.module module).bindings[index]? = some binding) {path : ItemPath}
    (hpath : path.leadingColon = true ∨ path.segments.head? ≠ some binding.name) :
    startBy c reply module path (some ⟨module, index⟩) = startBy c reply module path none := by
  unfold startBy
  split
  · rfl
  next first rest hsegments =>
    by_cases hcolon : path.leadingColon = true
    · rw [if_pos hcolon, if_pos hcolon]
    · have hne : first ≠ binding.name := by
        rintro rfl
        exact hpath.resolve_left hcolon (by rw [hsegments]; rfl)
      have hname : nameBy c reply module first (some ⟨module, index⟩) =
          nameBy c reply module first none := by
        unfold nameBy
        rw [bindingOf?_without hbinding hne]
      rw [hname]

/-! ## A name and its target -/

/-- A path that starts with the name of an import is searched for through the import's target. -/
theorem exists_target_of_direct {budget module : Nat} {first : String}
    (hfirst : first ∉ pathKeywords) {hit : BindingHit}
    (hhit : bindingOf? c module first none = some hit) {rest : List String} {r : String}
    (h : direct c (budget + 1) (.path module ⟨false, first :: rest⟩ none) = some r) :
    ∃ target, direct c budget (.path hit.site.module hit.target (some hit.site)) = some target ∧
      followBy c (direct c budget) (extend target rest) = some r := by
  obtain ⟨written, hwritten, hfollow⟩ := Option.bind_eq_some_iff.1 h
  rw [writtenBy, startBy_of_not_keyword hfirst, nameBy, hhit, Option.map_map] at hwritten
  obtain ⟨target, htarget, rfl⟩ := Option.map_eq_some_iff.1 hwritten
  exact ⟨target, htarget, hfollow⟩

theorem direct_without {budget module index : Nat} {binding : Binding}
    (hbinding : (c.module module).bindings[index]? = some binding) {path : ItemPath}
    (hpath : path.leadingColon = true ∨ path.segments.head? ≠ some binding.name) :
    direct c budget (.path module path (some ⟨module, index⟩)) =
      direct c budget (.path module path none) := by
  cases budget with
  | zero => rfl
  | succ budget => rw [direct, direct, writtenBy, writtenBy, startBy_without hbinding hpath]

/-- What a path denotes with segments behind it is what its target denotes with them. -/
theorem eq_of_denotes_append (htree : ModuleTree c.modules) {module : Nat} {path : ItemPath}
    (hpath : ∀ segment ∈ path.segments, IsIdentifier segment) {target r r' : String}
    (htarget : Denotes c (.path module path none) target) {rest : List String}
    (hrest : rest.head? ≠ some "super") (hr : Denotes c (.reexports (extend target rest)) r)
    (hr' : Denotes c (.path module ⟨path.leadingColon, path.segments ++ rest⟩ none) r') :
    r = r' := by
  obtain ⟨budget, written, hwritten, hfollow⟩ := exists_written_of_denotes htarget
  obtain ⟨budget', written', hwritten', hfollow'⟩ := exists_written_of_denotes hr'
  obtain ⟨⟨start, tail⟩, hstart, rfl⟩ := Option.map_eq_some_iff.1 hwritten
  obtain ⟨⟨start', tail'⟩, hstart', rfl⟩ := Option.map_eq_some_iff.1 hwritten'
  -- the longer path starts where the path does
  have hsame : (start', tail') = (start, tail ++ rest) := by
    have hlong := startBy_append hstart hrest
    have hmax := startBy_mono (fun _ _ => direct_mono (Nat.le_max_left budget budget')) hlong
    have hmax' := startBy_mono (fun _ _ => direct_mono (Nat.le_max_right budget budget')) hstart'
    exact Option.some.inj (hmax'.symm.trans hmax)
  obtain ⟨rfl, rfl⟩ := Prod.mk.inj hsame
  have hext : Extensible c (extend start' tail) :=
    extensible_of_writtenBy htree (fun question _ => extensible_of_direct htree question) hpath
      hwritten
  have hlong : Denotes c (.reexports (extend (extend start' tail) rest)) r' := by
    rwa [extend_extend]
  rw [denotes_extend_iff htree hext hfollow] at hlong
  exact hr.unique hlong

/-- In a crate without glob imports, the name that an import gives to a path denotes what the path
    does, and so do the two with the same segments behind them. -/
theorem resolvePath_binding {sources : Sources} {crate : String} {dependencies : List String}
    {root : FilePath} (hload : load sources crate dependencies root = .ok c)
    (hglobs : ∀ m ∈ c.modules, m.globs = []) (hmacros : c.macroCrates = []) {module : Nat}
    {name : String} (hname : name ∉ pathKeywords) {binding : Binding}
    (hbinding : (c.module module).bindings.find? (·.name = name) = some binding)
    (htarget : binding.target.leadingColon = true ∨ ∃ first,
      binding.target.segments.head? = some first ∧ (first ∈ pathKeywords ∨ first ≠ name)) :
    (∀ r, resolvePath c module ⟨false, [name]⟩ = some r →
      resolvePath c module binding.target = some r) ∧
    ∀ rest : List String, (∀ segment ∈ rest, segment ∉ pathKeywords) → ∀ r r',
      resolvePath c module ⟨false, name :: rest⟩ = some r →
      resolvePath c module
        ⟨binding.target.leadingColon, binding.target.segments ++ rest⟩ = some r' → r = r' := by
  have htree : ModuleTree c.modules := moduleTree_of_load hload
  obtain ⟨index, hindex, hhit⟩ := exists_bindingOf?_of_find? hbinding
  have hbound : binding.name = name := by simpa using List.find?_some hbinding
  -- the target starts elsewhere, so it comes to the same with the binding left out
  have helsewhere : binding.target.leadingColon = true ∨
      binding.target.segments.head? ≠ some binding.name := by
    refine htarget.imp_right ?_
    rintro ⟨first, hfirst, hkeyword | hne⟩
    · rw [hfirst, hbound]
      exact fun heq => hname (Option.some.inj heq ▸ hkeyword)
    · rw [hfirst, hbound]
      exact fun heq => hne (Option.some.inj heq)
  simp only [resolvePath_eq_direct hglobs hmacros, searchBudget]
  constructor
  · intro r hr
    obtain ⟨target, hdirect, hfollow⟩ := exists_target_of_direct hname hhit hr
    rw [direct_without hindex helsewhere] at hdirect
    -- what the target denotes is followed once more, and stays as it is
    have hsettled : Settled c target := settled_of_direct hglobs hmacros hdirect
    rw [extend_nil, followBy, settled_iff.1 hsettled] at hfollow
    rw [← Option.some.inj hfollow]
    exact direct_succ hdirect
  · intro rest hrest r r' hr hr'
    obtain ⟨target, hdirect, hfollow⟩ := exists_target_of_direct hname hhit hr
    rw [direct_without hindex helsewhere] at hdirect
    refine eq_of_denotes_append htree (spelled_target htree hhit) ⟨_, hdirect⟩ ?_
      ⟨32 + 1, hfollow⟩ ⟨_, hr'⟩
    intro hsuper
    exact hrest "super" (List.mem_of_head? hsuper) (by simp [pathKeywords])

/-- An import of what another import names. -/
theorem resolvePath_binding_twice :
    ∃ c, load (.ofTexts [(⟨"lib.rs"⟩, "mod a; mod b; use b::m as x;"),
        (⟨"a.rs"⟩, "pub struct T;"), (⟨"b.rs"⟩, "pub use crate::a as m;")])
        "app" ["jobkit"] ⟨"lib.rs"⟩ = .ok c ∧
      (∀ m ∈ c.modules, m.globs = []) ∧ c.macroCrates = [] ∧ "x" ∉ pathKeywords ∧
      (∃ binding, (c.module 0).bindings.find? (·.name = "x") = some binding ∧
        binding.target = ⟨false, ["b", "m"]⟩) ∧
      resolvePath c 0 ⟨false, ["x"]⟩ = some "app::a" ∧
      resolvePath c 0 ⟨false, ["b", "m"]⟩ = some "app::a" ∧
      resolvePath c 0 ⟨false, ["x", "T"]⟩ = some "app::a::T" ∧
      resolvePath c 0 ⟨false, ["b", "m", "T"]⟩ = some "app::a::T" := by
  refine exists_loaded_of_any (fun c => (∀ m ∈ c.modules, m.globs = []) ∧ c.macroCrates = [] ∧
      ((c.module 0).bindings.find? (·.name = "x")).map (·.target) = some ⟨false, ["b", "m"]⟩ ∧
      resolvePath c 0 ⟨false, ["x"]⟩ = some "app::a" ∧
      resolvePath c 0 ⟨false, ["x", "T"]⟩ = some "app::a::T" ∧
      (resolvePath c 0 ⟨false, ["b", "m", "T"]⟩).isSome)
    (by decide +kernel) fun c hload htest => ?_
  obtain ⟨hglobs, hmacros, hfind, hname, hpath, hsome⟩ := of_decide_eq_true htest
  obtain ⟨binding, hbinding, htarget⟩ := Option.map_eq_some_iff.1 hfind
  obtain ⟨r, hr⟩ := Option.isSome_iff_exists.1 hsome
  have hkeyword : "x" ∉ pathKeywords := by decide
  have helsewhere : binding.target.leadingColon = true ∨ ∃ first,
      binding.target.segments.head? = some first ∧ (first ∈ pathKeywords ∨ first ≠ "x") := by
    rw [htarget]
    exact .inr ⟨"b", rfl, .inr (by decide)⟩
  obtain ⟨halone, hrest⟩ := resolvePath_binding hload hglobs hmacros hkeyword hbinding helsewhere
  rw [htarget] at halone hrest
  have hsame : "app::a::T" = r := hrest ["T"] (by decide) _ _ hpath hr
  exact ⟨hglobs, hmacros, hkeyword, ⟨binding, hbinding, htarget⟩, hname, halone _ hname, hpath,
    hsame ▸ hr⟩

/-- A name that is a keyword is never looked up, so an import under it denotes nothing. -/
theorem resolvePath_binding_crate :
    ∃ c, load (.ofTexts [(⟨"lib.rs"⟩, "use jobkit::crate;")]) "app" ["jobkit"] ⟨"lib.rs"⟩ = .ok c ∧
      (∀ m ∈ c.modules, m.globs = []) ∧ c.macroCrates = [] ∧
      ((c.module 0).bindings.find? (·.name = "crate")).map (·.target) =
        some ⟨false, ["jobkit", "crate"]⟩ ∧
      resolvePath c 0 ⟨false, ["crate"]⟩ = some "app" ∧
      resolvePath c 0 ⟨false, ["jobkit", "crate"]⟩ = some "jobkit::crate" :=
  exists_loaded_of_decide (by decide +kernel)

end JobRoster.Crate
