import Mathlib.Data.List.Perm.Subperm
import JobRoster.Proofs.Crate.Direct
import JobRoster.Proofs.Crate.Loading

/-!
# Searching without a memory

While one path is resolved, every glob look-up is remembered. The plain search remembers none: it
knows only of the look-ups that still go on, and cuts them off.

A look-up that finds nothing may owe that to another that still goes on, and is remembered as
finding nothing after the other has ended. Where the targets of imports are named without globs
this does no harm: the other one ends without an answer too, or the search is over. Where the
target of a glob is itself named through a glob, the search goes on with the look-ups of another
name, and the two searches need not agree.
-/

namespace JobRoster.Crate

open Files Text Search

variable {c : Crate}

/-! ## The plain search -/

/-- The search, with the memo left as it was. -/
def Search.forget (s : Search) : Search :=
  fun memo => ((s memo).1, memo)

/-- Answers a question as `answer` does, but forgets a look-up as soon as it ends. -/
def plainAnswer (c : Crate) : (budget : Nat) → Ask
  | 0, _ => return none
  | budget + 1, question =>
    answerBy c (plainAnswer c budget)
      (fun module name => (globLookup c (plainAnswer c budget) module name).forget) question

def resolvePlain (c : Crate) (module : Nat) (path : ItemPath) : Option String :=
  (plainAnswer c searchBudget (.path module path none) Memo.empty).1

/-! ## Imports that are named without globs -/

theorem lt_length_of_mem_globs {module : Nat} {glob : Glob}
    (h : glob ∈ (c.module module).globs) : module < c.modules.length := by
  by_contra hge
  rw [module_of_length_le (Nat.le_of_not_lt hge)] at h
  simp [Module.new] at h

/-- The targets of all imports are named without the help of glob imports. -/
def DirectImports (c : Crate) : Prop :=
  ∀ module < c.modules.length,
    (∀ entry ∈ (c.module module).bindings.zipIdx,
      startsInGlobs c module entry.1.target (some ⟨module, entry.2⟩) = false) ∧
    ∀ glob ∈ (c.module module).globs, startsInGlobs c module glob.target none = false

instance (c : Crate) : Decidable (DirectImports c) := by
  unfold DirectImports
  infer_instance

/-- The question is about a path that is named without the help of glob imports, or about a
    canonical one. -/
def Question.Direct (c : Crate) : Question → Prop
  | .path module written without => startsInGlobs c module written without = false
  | .reexports _ => True
  | .glob _ _ => False

theorem closedUnderImports_of_directImports (h : DirectImports c) :
    ClosedUnderImports c (Question.Direct c) where
  path module name without hit hhit := by
    obtain ⟨rfl, binding, hbinding, htarget⟩ := exists_getElem?_of_bindingOf? hhit
    have hlt : hit.site.module < c.modules.length := by
      by_contra hge
      rw [module_of_length_le (Nat.le_of_not_lt hge)] at hbinding
      simp [Module.new] at hbinding
    have hdirect := (h _ hlt).1 (binding, hit.site.index) (List.mem_zipIdx_iff_getElem?.2 hbinding)
    rwa [htarget] at hdirect
  reexports _ := trivial

theorem DirectImports.direct_of_mem_globs (h : DirectImports c) {module : Nat} {glob : Glob}
    (hglob : glob ∈ (c.module module).globs) : (Question.path module glob.target none).Direct c :=
  (h module (lt_length_of_mem_globs hglob)).2 glob hglob

/-- What a search by steps answers without the help of glob imports is what `direct` does, whatever
    is remembered. -/
theorem eq_pure_direct (h : DirectImports c) (search : Nat → Ask) (throughGlobs : Nat → GlobSearch)
    (hzero : ∀ question, search 0 question = pure none)
    (hsucc : ∀ budget question, search (budget + 1) question =
      answerBy c (search budget) (throughGlobs budget) question)
    (budget : Nat) {question : Question} (hquestion : question.Direct c) :
    search budget question = pure (direct c budget question) := by
  apply Gives.eq_pure
  intro memo
  refine gives_direct (closedUnderImports_of_directImports h) (fun _ _ => id) search throughGlobs
    hzero hsucc ?_ budget question hquestion
  intro budget module path without hdirect hglobs
  exact absurd hglobs (Bool.eq_false_iff.1 hdirect)

theorem answer_eq_pure_direct (h : DirectImports c) (budget : Nat) {question : Question}
    (hquestion : question.Direct c) : answer c budget question = pure (direct c budget question) :=
  eq_pure_direct h (answer c) _ (fun _ => rfl) (fun _ _ => rfl) budget hquestion

theorem plainAnswer_eq_pure_direct (h : DirectImports c) (budget : Nat) {question : Question}
    (hquestion : question.Direct c) :
    plainAnswer c budget question = pure (direct c budget question) :=
  eq_pure_direct h (plainAnswer c) _ (fun _ => rfl) (fun _ _ => rfl) budget hquestion

/-! ## Looking through globs as a value -/

/-- What a name denotes through globs of a module, by the paths that the globs lead to and what the
    name denotes through the globs of the modules there. -/
def seek (c : Crate) (target : Glob → Option String) (within : Nat → Option String) (module : Nat)
    (name : String) : (external : List String) → List Glob → Option String
  | external, [] => soleExternal? name external
  | external, glob :: globs =>
    match target glob with
    | none => seek c target within module name external globs
    | some base =>
      match c.moduleNamed? base with
      | some other =>
        (if (c.module other).declares name || (c.module other).binds name then
            some (extend base [name])
          else if other = module then none
          else within other).or (seek c target within module name external globs)
      | none => seek c target within module name (noteExternal c external base) globs

/-- One of the globs leads to a module. -/
def LedTo (c : Crate) (target : Glob → Option String) (globs : List Glob) (other : Nat) : Prop :=
  ∃ glob ∈ globs, ∃ base, target glob = some base ∧ c.moduleNamed? base = some other

theorem LedTo.tail {target : Glob → Option String} {glob : Glob} {globs : List Glob} {other : Nat}
    (h : c.LedTo target globs other) : c.LedTo target (glob :: globs) other := by
  obtain ⟨further, hglob, hled⟩ := h
  exact ⟨further, List.mem_cons_of_mem _ hglob, hled⟩

/-- Where less is found within the modules that globs lead to, nothing is found still. -/
theorem seek_eq_none_of {target : Glob → Option String} {within within' : Nat → Option String}
    {globs : List Glob}
    (hwithin : ∀ other, c.LedTo target globs other → within other = none → within' other = none)
    {module : Nat} {name : String} {external : List String}
    (h : seek c target within module name external globs = none) :
    seek c target within' module name external globs = none := by
  induction globs generalizing external with
  | nil => exact h
  | cons glob globs ih =>
    have hrest : ∀ other, c.LedTo target globs other → within other = none →
        within' other = none := fun other hled => hwithin other hled.tail
    rw [seek] at h ⊢
    split at h
    next => exact ih hrest h
    next base htarget =>
      split at h
      next other hbase =>
        rw [Option.or_eq_none_iff] at h ⊢
        refine ⟨?_, ih hrest h.2⟩
        have hhere := h.1
        split_ifs at hhere ⊢
        · rfl
        · exact hwithin other ⟨glob, List.mem_cons_self, base, htarget, hbase⟩ hhere
      next => exact ih hrest h

namespace Search

/-- From a memo of which `I` holds, the search gives an answer, and leaves such a memo if it finds
    nothing. -/
def Leads (I : Memo → Prop) (s : Search) (answer : Option String) : Prop :=
  ∀ memo, I memo → (s memo).1 = answer ∧ (answer = none → I (s memo).2)

theorem Leads.pure {I : Memo → Prop} (answer : Option String) :
    Leads I (Pure.pure answer : Search) answer :=
  fun _ hmemo => ⟨rfl, fun _ => hmemo⟩

/-- What is found is kept, and else the search goes on. -/
theorem Leads.orElse {I : Memo → Prop} {s : Search} {f : Option String → Search}
    {first second : Option String} (hs : Leads I s first)
    (hsome : ∀ found, f (some found) = Pure.pure (some found)) (hnone : Leads I (f none) second) :
    Leads I (s >>= f) (first.or second) := by
  intro memo hmemo
  obtain ⟨hanswer, hafter⟩ := hs memo hmemo
  rw [bind_apply, hanswer]
  cases first with
  | none => exact hnone _ (hafter rfl)
  | some found =>
    rw [hsome]
    exact ⟨rfl, nofun⟩

end Search

theorem leads_searchGlobs {I : Memo → Prop} {ask : Ask} {target : Glob → Option String}
    {within : Nat → Option String} {module : Nat} {name : String} {globs : List Glob}
    (htarget : ∀ glob ∈ globs, ask (.path module glob.target none) = pure (target glob))
    (hwithin : ∀ other, c.LedTo target globs other →
      Leads I (ask (.glob other name)) (within other)) (external : List String) :
    Leads I (searchGlobs c ask module name external globs)
      (seek c target within module name external globs) := by
  induction globs generalizing external with
  | nil => exact .pure _
  | cons glob globs ih =>
    have hrest := ih (fun glob hglob => htarget glob (List.mem_cons_of_mem _ hglob))
      fun other hled => hwithin other hled.tail
    rw [searchGlobs, seek, htarget glob List.mem_cons_self, pure_bind]
    cases hhere : target glob with
    | none => exact hrest external
    | some base =>
      simp only
      cases hbase : c.moduleNamed? base with
      | none => exact hrest _
      | some other =>
        refine Leads.orElse ?_ (fun _ => rfl) (hrest external)
        unfold searchGlob
        split_ifs
        · exact .pure _
        · exact .pure _
        · exact hwithin other ⟨glob, List.mem_cons_self, base, hhere, hbase⟩

/-! ## Look-ups inside look-ups -/

/-- What a name denotes through the globs of a module while look-ups of the name in the modules
    `running` go on, with look-ups nested `budget` deep at most. The paths that globs lead to are
    found in `steps` steps. -/
def through (c : Crate) (steps : Nat) (name : String) :
    (budget : Nat) → (running : List Nat) → (module : Nat) → Option String
  | 0, _, _ => none
  | budget + 1, running, module =>
    if module ∈ running then none
    else
      seek c (fun glob => direct c steps (.path module glob.target none))
        (through c steps name budget (module :: running)) module name [] (c.module module).globs

section Through

variable {steps : Nat} {name : String}

theorem through_of_mem {running : List Nat} {module : Nat} (h : module ∈ running) (budget : Nat) :
    through c steps name budget running module = none := by
  cases budget with
  | zero => rfl
  | succ budget => rw [through, if_pos h]

/-- With less budget and more look-ups going on, no more is found. -/
theorem through_mono {budget more : Nat} (hle : budget ≤ more) {running running' : List Nat}
    (hsub : running ⊆ running') {module : Nat}
    (h : through c steps name more running module = none) :
    through c steps name budget running' module = none := by
  induction budget generalizing more running running' module with
  | zero => rfl
  | succ budget ih =>
    obtain ⟨more, rfl⟩ : ∃ n, more = n + 1 := ⟨more - 1, by omega⟩
    by_cases hrunning : module ∈ running'
    · exact through_of_mem hrunning _
    · rw [through, if_neg fun hmem => hrunning (hsub hmem)] at h
      rw [through, if_neg hrunning]
      exact seek_eq_none_of
        (fun other _ => ih (Nat.le_of_succ_le_succ hle) (List.cons_subset_cons module hsub)) h

/-- No budget is enough to find the name. -/
def Silent (c : Crate) (steps : Nat) (name : String) (running : List Nat) (module : Nat) : Prop :=
  ∀ budget, through c steps name budget running module = none

theorem Silent.mono {running running' : List Nat} {module : Nat}
    (h : Silent c steps name running module) (hsub : running ⊆ running') :
    Silent c steps name running' module :=
  fun budget => through_mono (Nat.le_refl budget) hsub (h budget)

/-- What finds nothing while a look-up goes on that finds nothing in the end finds nothing after it
    either. -/
theorem through_eq_none_of_cons {budget other : Nat} {running : List Nat}
    (hother : Silent c steps name running other) {module : Nat}
    (h : through c steps name budget (other :: running) module = none) :
    through c steps name budget running module = none := by
  -- the search goes as before until it comes to `other`, and then finds nothing: more look-ups are
  -- cut off there than when `other` itself was searched
  induction budget generalizing running module with
  | zero => rfl
  | succ budget ih =>
    by_cases hsame : module = other
    · exact hsame ▸ hother (budget + 1)
    by_cases hrunning : module ∈ running
    · exact through_of_mem hrunning _
    · rw [through, if_neg (by simp [hsame, hrunning])] at h
      rw [through, if_neg hrunning]
      refine seek_eq_none_of (fun next _ hnext => ?_) h
      have hswap : module :: other :: running ⊆ other :: module :: running :=
        (List.Perm.swap other module running).subset
      exact ih (hother.mono (List.subset_cons_self _ _))
        (through_mono (Nat.le_refl budget) hswap hnext)

theorem Silent.of_cons {other : Nat} {running : List Nat}
    (hother : Silent c steps name running other) {module : Nat}
    (h : Silent c steps name (other :: running) module) : Silent c steps name running module :=
  fun budget => through_eq_none_of_cons hother (h budget)

end Through

/-! ## Enough budget -/

/-- A glob of a module leads to another one, by a path that is found in `steps` steps. -/
def GlobReaches (c : Crate) (steps module other : Nat) : Prop :=
  c.LedTo (fun glob => direct c steps (.path module glob.target none)) (c.module module).globs other

/-- A glob of each module in the list leads to the one in front of it. -/
def Linked (c : Crate) (steps : Nat) (running : List Nat) : Prop :=
  running.IsChain fun inner outer => c.GlobReaches steps outer inner

theorem Linked.cons {steps module other : Nat} {running : List Nat}
    (h : c.Linked steps (module :: running)) (hother : c.GlobReaches steps module other) :
    c.Linked steps (other :: module :: running) :=
  List.isChain_cons_cons.2 ⟨hother, h⟩

theorem linked_singleton (c : Crate) (steps module : Nat) : c.Linked steps [module] :=
  .singleton module

/-- Modules in which look-ups of a name may go on one inside the other, the last one first. All have
    globs, and one of each leads to the next. -/
structure GlobChain (c : Crate) (steps : Nat) (running : List Nat) : Prop where
  nodup : running.Nodup
  linked : c.Linked steps running
  globs : ∀ module ∈ running, (c.module module).globs ≠ []

/-- No more look-ups than so many go on one inside the other. -/
def GlobDepthWithin (c : Crate) (steps depth : Nat) : Prop :=
  ∀ running, c.GlobChain steps running → running.length ≤ depth

/-- The modules that have globs. -/
def globModules (c : Crate) : List Nat :=
  (List.range c.modules.length).filter fun module => !(c.module module).globs.isEmpty

theorem mem_globModules {module : Nat} (h : (c.module module).globs ≠ []) :
    module ∈ globModules c := by
  obtain ⟨glob, hglob⟩ := List.exists_mem_of_ne_nil _ h
  simp [globModules, lt_length_of_mem_globs hglob, h]

/-- There are no more look-ups than modules that have globs. -/
theorem globDepthWithin_globModules (steps : Nat) :
    c.GlobDepthWithin steps (globModules c).length := by
  intro running hchain
  have hsub : running ⊆ globModules c := fun module hrunning =>
    mem_globModules (hchain.globs module hrunning)
  exact (List.Nodup.subperm hchain.nodup hsub).length_le

section Chains

variable {steps depth : Nat} {name : String} {running : List Nat} {module : Nat}

theorem GlobChain.nil (c : Crate) (steps : Nat) : c.GlobChain steps [] :=
  ⟨List.nodup_nil, .nil, by simp⟩

theorem GlobChain.cons (h : c.GlobChain steps running) (hnext : c.Linked steps (module :: running))
    (hnew : module ∉ running) (hglobs : (c.module module).globs ≠ []) :
    c.GlobChain steps (module :: running) where
  nodup := List.nodup_cons.2 ⟨hnew, h.nodup⟩
  linked := hnext
  globs := List.forall_mem_cons.2 ⟨hglobs, h.globs⟩

theorem GlobDepthWithin.length_lt (hdepth : c.GlobDepthWithin steps depth)
    (h : c.GlobChain steps running) (hnext : c.Linked steps (module :: running))
    (hnew : module ∉ running) (hglobs : (c.module module).globs ≠ []) :
    running.length < depth := by
  have hlength := hdepth _ (h.cons hnext hnew hglobs)
  rwa [List.length_cons] at hlength

theorem through_of_globs_eq_nil (h : (c.module module).globs = []) (budget : Nat)
    (running : List Nat) : through c steps name budget running module = none := by
  cases budget with
  | zero => rfl
  | succ budget =>
    rw [through, h]
    exact ite_self none

/-- If the budget is enough for all look-ups that may go on one inside the other, more budget finds
    nothing more. -/
theorem through_succ_eq_none (hdepth : c.GlobDepthWithin steps depth) {budget : Nat}
    (hchain : c.GlobChain steps running) (henough : depth ≤ budget + running.length)
    (hnext : c.Linked steps (module :: running))
    (h : through c steps name budget running module = none) :
    through c steps name (budget + 1) running module = none := by
  induction budget generalizing running module with
  | zero =>
    -- there is no room for one more look-up
    by_cases hrunning : module ∈ running
    · exact through_of_mem hrunning _
    · apply through_of_globs_eq_nil
      by_contra hglobs
      have hlt := hdepth.length_lt hchain hnext hrunning hglobs
      omega
  | succ budget ih =>
    by_cases hrunning : module ∈ running
    · exact through_of_mem hrunning _
    by_cases hglobs : (c.module module).globs = []
    · exact through_of_globs_eq_nil hglobs _ _
    rw [through, if_neg hrunning] at h ⊢
    have hlength : depth ≤ budget + (module :: running).length := by
      rw [List.length_cons]
      omega
    exact seek_eq_none_of (fun other hled =>
      ih (hchain.cons hnext hrunning hglobs) hlength (hnext.cons hled)) h

theorem silent_of_through (hdepth : c.GlobDepthWithin steps depth) {budget : Nat}
    (hchain : c.GlobChain steps running) (henough : depth ≤ budget + running.length)
    (hnext : c.Linked steps (module :: running))
    (h : through c steps name budget running module = none) :
    Silent c steps name running module := by
  intro budget'
  rcases Nat.le_total budget' budget with hle | hle
  · exact through_mono hle (List.Subset.refl running) h
  · induction hle with
    | refl => exact h
    | @step more hle ih =>
      have hmore : depth ≤ more + running.length :=
        Nat.le_trans henough (Nat.add_le_add_right hle _)
      exact through_succ_eq_none hdepth hchain hmore hnext ih

end Chains

/-- The globs of the crate lead to paths that are found in `steps` steps if they are found at
    all. -/
def GlobsWithin (c : Crate) (steps : Nat) : Prop :=
  ∀ module < c.modules.length, ∀ glob ∈ (c.module module).globs,
    direct c steps (.path module glob.target none) =
      direct c searchBudget (.path module glob.target none)

instance (c : Crate) (steps : Nat) : Decidable (GlobsWithin c steps) := by
  unfold GlobsWithin
  infer_instance

/-- Look-ups of a name go on one inside the other, and the budget is enough for those that may go on
    inside them and for the paths that their globs lead to. -/
structure Room (c : Crate) (steps budget : Nat) (running : List Nat) : Prop where
  chain : c.GlobChain steps running
  enough : ∃ depth, c.GlobDepthWithin steps depth ∧ depth + steps ≤ budget + running.length + 1
  within : budget < searchBudget

namespace Room

variable {steps budget : Nat} {running : List Nat} {module : Nat}

theorem steps_le (h : Room c steps budget running) (hnext : c.Linked steps (module :: running))
    (hnew : module ∉ running) (hglobs : (c.module module).globs ≠ []) : steps ≤ budget := by
  obtain ⟨depth, hdepth, henough⟩ := h.enough
  have hlt := hdepth.length_lt h.chain hnext hnew hglobs
  omega

theorem cons (h : Room c steps (budget + 1) running) (hnext : c.Linked steps (module :: running))
    (hnew : module ∉ running) (hglobs : (c.module module).globs ≠ []) :
    Room c steps budget (module :: running) where
  chain := h.chain.cons hnext hnew hglobs
  enough := by
    obtain ⟨depth, hdepth, henough⟩ := h.enough
    refine ⟨depth, hdepth, ?_⟩
    rw [List.length_cons]
    omega
  within := Nat.lt_of_succ_lt h.within

theorem silent (h : Room c steps budget running) (hnext : c.Linked steps (module :: running))
    {name : String} (hnone : through c steps name (budget + 1) running module = none) :
    Silent c steps name running module := by
  obtain ⟨depth, hdepth, henough⟩ := h.enough
  exact silent_of_through hdepth h.chain (by omega) hnext hnone

end Room

theorem direct_glob_eq {steps budget : Nat} (hglobs : GlobsWithin c steps) (hle : steps ≤ budget)
    (hlt : budget < searchBudget) {module : Nat} {glob : Glob}
    (hglob : glob ∈ (c.module module).globs) :
    direct c budget (.path module glob.target none) =
      direct c steps (.path module glob.target none) := by
  have hwithin := hglobs module (lt_length_of_mem_globs hglob) glob hglob
  cases hbudget : direct c budget (.path module glob.target none) with
  | some r => rw [hwithin, direct_mono (Nat.le_of_lt hlt) hbudget]
  | none =>
    cases hsteps : direct c steps (.path module glob.target none) with
    | none => rfl
    | some r =>
      rw [direct_mono hle hsteps] at hbudget
      cases hbudget

/-! ## Look-ups with a memory and without -/

section Lookups

variable {steps : Nat} {name : String}

/-- The globs of a module are searched with the same answer by every search that answers the
    questions about other modules with the same. -/
theorem leads_searchGlobs_through (hglobs : GlobsWithin c steps) {I : Memo → Prop} {ask : Ask}
    {budget : Nat} {running : List Nat} (hroom : Room c steps budget running) {module : Nat}
    (hnext : c.Linked steps (module :: running)) (hnew : module ∉ running)
    (hpath : ∀ glob ∈ (c.module module).globs, ask (.path module glob.target none) =
      pure (direct c budget (.path module glob.target none)))
    (hwithin : (c.module module).globs ≠ [] → ∀ other, c.GlobReaches steps module other →
      Leads I (ask (.glob other name)) (through c steps name budget (module :: running) other)) :
    Leads I (searchGlobs c ask module name [] (c.module module).globs)
      (through c steps name (budget + 1) running module) := by
  by_cases hnone : (c.module module).globs = []
  · rw [through_of_globs_eq_nil hnone, hnone]
    exact .pure _
  · -- the module has globs, so there is room for the paths that they lead to
    rw [through, if_neg hnew]
    refine leads_searchGlobs (fun glob hglob => ?_) (hwithin hnone) []
    have hsteps := hroom.steps_le hnext hnew hnone
    rw [hpath glob hglob, direct_glob_eq hglobs hsteps hroom.within hglob]

/-- Only look-ups in the modules `running` have begun, and they still go on. -/
def Running (name : String) (running : List Nat) (memo : Memo) : Prop :=
  ∀ module, memo.find? ⟨module, name⟩ = if module ∈ running then some none else none

theorem Running.start {running : List Nat} {memo : Memo} (h : Running name running memo)
    (module : Nat) : Running name (module :: running) (memo.start ⟨module, name⟩) := by
  intro other
  rw [Memo.find?_start]
  by_cases hsame : module = other
  · simp [hsame]
  · have hne : other ≠ module := Ne.symm hsame
    simp [hsame, hne, h other]

/-- The plain search finds through globs what `through` does. -/
theorem plainLookup_eq_through (hdirect : DirectImports c) (hglobs : GlobsWithin c steps)
    {budget : Nat} {running : List Nat} (hroom : Room c steps budget running) {memo : Memo}
    (hmemo : Running name running memo) {module : Nat} (hnext : c.Linked steps (module :: running)) :
    (globLookup c (plainAnswer c budget) module name memo).1 =
      through c steps name (budget + 1) running module := by
  by_cases hrunning : module ∈ running
  · rw [globLookup_apply, hmemo module, if_pos hrunning, through_of_mem hrunning]
  · rw [globLookup_apply, hmemo module, if_neg hrunning]
    have hpath : ∀ glob ∈ (c.module module).globs,
        plainAnswer c budget (.path module glob.target none) =
          pure (direct c budget (.path module glob.target none)) := by
      intro glob hglob
      exact plainAnswer_eq_pure_direct hdirect budget (hdirect.direct_of_mem_globs hglob)
    have hwithin : (c.module module).globs ≠ [] → ∀ other, c.GlobReaches steps module other →
        Leads (Running name (module :: running)) (plainAnswer c budget (.glob other name))
          (through c steps name budget (module :: running) other) := by
      intro hne other hreaches
      cases budget with
      | zero => exact .pure none
      | succ budget =>
        -- the look-up inside is forgotten, so the memo stays as it is
        intro memo hmemo
        have hroom' := hroom.cons hnext hrunning hne
        exact ⟨plainLookup_eq_through hdirect hglobs hroom' hmemo (hnext.cons hreaches),
          fun _ => hmemo⟩
    exact (leads_searchGlobs_through hglobs hroom hnext hrunning hpath hwithin _
      (hmemo.start module)).1
termination_by budget

/-- Nothing is remembered as found. The look-ups in the modules `running` have begun, and those that
    have ended would find nothing if they were tried again. -/
structure Remembers (c : Crate) (steps : Nat) (name : String) (running : List Nat) (memo : Memo) :
    Prop where
  begun : ∀ module ∈ running, memo.find? ⟨module, name⟩ ≠ none
  silent : ∀ module found, memo.find? ⟨module, name⟩ = some found →
    found = none ∧ Silent c steps name running module

namespace Remembers

variable {running : List Nat} {memo : Memo} {module : Nat}

theorem empty : Remembers c steps name [] Memo.empty :=
  ⟨by simp, by simp⟩

theorem start (h : Remembers c steps name running memo) :
    Remembers c steps name (module :: running) (memo.start ⟨module, name⟩) where
  begun other hother := by
    rw [Memo.find?_start]
    split
    next => simp
    next hne =>
      have hrunning : other ∈ running := by
        refine (List.mem_cons.1 hother).resolve_left ?_
        rintro rfl
        exact hne rfl
      exact h.begun other hrunning
  silent other found hfound := by
    rw [Memo.find?_start] at hfound
    split at hfound
    next hsame =>
      obtain ⟨rfl, -⟩ := Lookup.mk.inj hsame
      exact ⟨(Option.some.inj hfound).symm, fun budget => through_of_mem List.mem_cons_self budget⟩
    next =>
      obtain ⟨hnone, hsilent⟩ := h.silent other found hfound
      exact ⟨hnone, hsilent.mono (List.subset_cons_self _ _)⟩

/-- A look-up that ends with nothing leaves what others owed to it. -/
theorem finish (h : Remembers c steps name (module :: running) memo)
    (hsilent : Silent c steps name running module) :
    Remembers c steps name running (memo.finish ⟨module, name⟩ none) where
  begun other hother := by
    rw [Memo.find?_finish]
    have hbegun := h.begun other (List.mem_cons_of_mem _ hother)
    split
    · rwa [Ne, Option.map_eq_none_iff]
    · exact hbegun
  silent other found hfound := by
    rw [Memo.find?_finish] at hfound
    split at hfound
    next hsame =>
      obtain ⟨rfl, -⟩ := Lookup.mk.inj hsame
      obtain ⟨_, _, hnone⟩ := Option.map_eq_some_iff.1 hfound
      exact ⟨hnone.symm, hsilent⟩
    next =>
      obtain ⟨hnone, hother⟩ := h.silent other found hfound
      exact ⟨hnone, hsilent.of_cons hother⟩

end Remembers

/-- The search with a memory finds through globs what `through` does. -/
theorem leads_globLookup (hdirect : DirectImports c) (hglobs : GlobsWithin c steps)
    {budget : Nat} {running : List Nat} (hroom : Room c steps budget running) {module : Nat}
    (hnext : c.Linked steps (module :: running)) :
    Leads (Remembers c steps name running) (globLookup c (answer c budget) module name)
      (through c steps name (budget + 1) running module) := by
  intro memo hmemo
  rw [globLookup_apply]
  cases hfind : memo.find? ⟨module, name⟩ with
  | some known =>
    obtain ⟨rfl, hsilent⟩ := hmemo.silent module known hfind
    exact ⟨(hsilent (budget + 1)).symm, fun _ => hmemo⟩
  | none =>
    have hnew : module ∉ running := by
      intro hrunning
      exact hmemo.begun module hrunning hfind
    have hpath : ∀ glob ∈ (c.module module).globs,
        answer c budget (.path module glob.target none) =
          pure (direct c budget (.path module glob.target none)) := by
      intro glob hglob
      exact answer_eq_pure_direct hdirect budget (hdirect.direct_of_mem_globs hglob)
    have hwithin : (c.module module).globs ≠ [] → ∀ other, c.GlobReaches steps module other →
        Leads (Remembers c steps name (module :: running)) (answer c budget (.glob other name))
          (through c steps name budget (module :: running) other) := by
      intro hne other hreaches
      cases budget with
      | zero => exact .pure none
      | succ budget =>
        exact leads_globLookup hdirect hglobs (hroom.cons hnext hnew hne) (hnext.cons hreaches)
    obtain ⟨hanswer, hafter⟩ :=
      leads_searchGlobs_through hglobs hroom hnext hnew hpath hwithin _ hmemo.start
    refine ⟨hanswer, fun hnone => ?_⟩
    -- what was remembered on the way holds without the look-up, as it found nothing
    have hfinish := (hafter hnone).finish (hroom.silent hnext hnone)
    rwa [← hanswer.trans hnone] at hfinish
termination_by budget

end Lookups

/-! ## The two searches -/

/-- What a path denotes before imports are followed, by what its first name denotes through
    globs. -/
def afterGlobs (c : Crate) (first : String) (rest : List String) : Option String → Option String
  | some found => some (extend found rest)
  | none =>
    match rest, c.macroCrates with
    | [], [crate] => some (extend crate [first])
    | _, _ => none

theorem exists_of_startsInGlobs {module : Nat} {path : ItemPath} {without : Option BindingSite}
    (h : startsInGlobs c module path without = true) :
    ∃ first rest, path = ⟨false, first :: rest⟩ := by
  obtain ⟨leadingColon, segments⟩ := path
  cases leadingColon with
  | true => cases h
  | false =>
    cases segments with
    | nil => cases h
    | cons first rest => exact ⟨first, rest, rfl⟩

/-- A path that only globs could tell the start of is searched for by one glob look-up; the rest
    needs no other. -/
theorem answerBy_eq_map (hdirect : DirectImports c) {module : Nat} {first : String}
    {rest : List String} (hpath : startsInGlobs c module ⟨false, first :: rest⟩ none = true)
    {reply : Reply} {ask : Ask} {throughGlobs : GlobSearch}
    (hask : ∀ question : Question, question.Direct c → ask question = pure (reply question)) :
    answerBy c ask throughGlobs (.path module ⟨false, first :: rest⟩ none) =
      (fun found => (afterGlobs c first rest found).bind (followBy c reply)) <$>
        throughGlobs module first := by
  simp only [startsInGlobs, Bool.and_eq_true, decide_eq_true_eq, Option.isNone_iff_eq_none,
    Bool.not_eq_true'] at hpath
  obtain ⟨⟨⟨hkeyword, hbinding⟩, hdeclares⟩, hcrate⟩ := hpath
  have hfollow : ∀ canonical, followReexports c ask canonical =
      pure (followBy c reply canonical) := fun canonical =>
    Gives.eq_pure fun _ => gives_followReexports (closedUnderImports_of_directImports hdirect)
      (fun question hquestion => by rw [hask question hquestion]; exact .pure _) canonical
  rw [answerBy, resolveWritten_of_not_keyword hkeyword]
  unfold resolveRelative
  -- only the look-up can tell, and what comes after it is a value
  simp only [hbinding, hdeclares, hcrate, hfollow, Bool.false_eq_true, if_false]
  rw [bind_assoc, map_eq_pure_bind]
  refine congrArg (throughGlobs module first >>= ·) (funext fun found => ?_)
  cases found with
  | some found => rfl
  | none =>
    unfold afterGlobs
    generalize c.macroCrates = crates
    cases rest with
    | cons segment rest => rfl
    | nil =>
      cases crates with
      | nil => rfl
      | cons crate crates => cases crates <;> rfl

theorem exists_answerBy_eq_map (hdirect : DirectImports c) {module : Nat} {path : ItemPath}
    (hpath : startsInGlobs c module path none = true) (reply : Reply) :
    ∃ (first : String) (finish : Option String → Option String), ∀ ask throughGlobs,
      (∀ question : Question, question.Direct c → ask question = pure (reply question)) →
        answerBy c ask throughGlobs (.path module path none) =
          finish <$> throughGlobs module first := by
  obtain ⟨first, rest, rfl⟩ := exists_of_startsInGlobs hpath
  exact ⟨first, _, fun _ _ hask => answerBy_eq_map hdirect hpath hask⟩

/-- Before the first look-up there is room for all that may go on inside it. -/
theorem room_first {steps depth : Nat} (hdepth : GlobDepthWithin c steps depth)
    (henough : depth + steps ≤ searchBudget) : Room c steps 32 [] where
  chain := .nil c steps
  enough := ⟨depth, hdepth, henough⟩
  within := by decide

/-- Where the targets of all imports are named without globs, and the budget is enough for all
    look-ups that may go on one inside the other, what is remembered changes no answer. -/
theorem resolvePath_eq_resolvePlain (hdirect : DirectImports c) {steps depth : Nat}
    (hglobs : GlobsWithin c steps) (hdepth : GlobDepthWithin c steps depth)
    (henough : depth + steps ≤ searchBudget)
    (module : Nat) (path : ItemPath) : resolvePath c module path = resolvePlain c module path := by
  cases hpath : startsInGlobs c module path none with
  | false =>
    have hquestion : (Question.path module path none).Direct c := hpath
    rw [resolvePath, resolvePlain, answer_eq_pure_direct hdirect _ hquestion,
      plainAnswer_eq_pure_direct hdirect _ hquestion]
  | true =>
    obtain ⟨first, finish, hfinish⟩ := exists_answerBy_eq_map hdirect hpath (direct c 32)
    have hroom := room_first hdepth henough
    have hplain : (globLookup c (plainAnswer c 32) module first Memo.empty).1 =
        through c steps first 33 [] module :=
      plainLookup_eq_through hdirect hglobs hroom (fun _ => rfl) (linked_singleton c steps module)
    have hmemory : (globLookup c (answer c 32) module first Memo.empty).1 =
        through c steps first 33 [] module :=
      (leads_globLookup hdirect hglobs hroom (linked_singleton c steps module) Memo.empty .empty).1
    have hanswer := hfinish (answer c 32) (globLookup c (answer c 32)) fun _ hquestion =>
      answer_eq_pure_direct hdirect 32 hquestion
    have hplainAnswer := hfinish (plainAnswer c 32)
      (fun module name => (globLookup c (plainAnswer c 32) module name).forget)
      fun _ hquestion => plainAnswer_eq_pure_direct hdirect 32 hquestion
    rw [resolvePath, resolvePlain, searchBudget, answer_succ, plainAnswer, hanswer, hplainAnswer]
    exact congrArg finish (hmemory.trans hplain.symm)

/-- Modules that import all of each other. -/
theorem resolvePath_eq_resolvePlain_cycle :
    ∃ c, load (.ofTexts [(⟨"lib.rs"⟩, "mod a; mod b; pub use a::*; pub use b::*;"),
        (⟨"a.rs"⟩, "use super::*;"), (⟨"b.rs"⟩, "use crate::*; use super::a::*; pub struct N;")])
        "app" ["jobkit"] ⟨"lib.rs"⟩ = .ok c ∧
      DirectImports c ∧ GlobsWithin c 1 ∧ GlobDepthWithin c 1 (globModules c).length ∧
      (globModules c).length + 1 ≤ searchBudget ∧
      resolvePath c 1 ⟨false, ["N"]⟩ = some "app::b::N" ∧
      ∀ module path, resolvePath c module path = resolvePlain c module path := by
  refine exists_loaded_of_any (fun c => DirectImports c ∧ GlobsWithin c 1 ∧
      (globModules c).length + 1 ≤ searchBudget ∧
      resolvePath c 1 ⟨false, ["N"]⟩ = some "app::b::N")
    (by decide +kernel) fun c hload htest => ?_
  obtain ⟨hdirect, hglobs, henough, hr⟩ := of_decide_eq_true htest
  have hdepth := globDepthWithin_globModules (c := c) 1
  exact ⟨hdirect, hglobs, hdepth, henough, hr,
    resolvePath_eq_resolvePlain hdirect hglobs hdepth henough⟩

/-- A look-up that is remembered from before the glob that hides it has ended. -/
theorem resolvePath_ne_resolvePlain :
    ∃ c, load (.ofTexts [(⟨"lib.rs"⟩, "use a::*; use b::*; use crate::c::*; mod c;"),
        (⟨"c.rs"⟩, "pub mod a;"), (⟨"c/a.rs"⟩, "pub mod b;"), (⟨"c/a/b.rs"⟩, "pub struct N;")])
        "app" [] ⟨"lib.rs"⟩ = .ok c ∧
      resolvePath c 0 ⟨false, ["N"]⟩ = none ∧
      resolvePlain c 0 ⟨false, ["N"]⟩ = some "app::c::a::b::N" :=
  exists_loaded_of_decide (by decide +kernel)

end JobRoster.Crate
