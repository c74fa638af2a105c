import Mathlib.Data.List.Chain
import Mathlib.Data.List.Nodup
import Mathlib.Data.List.Perm.Subperm
import Mathlib.Logic.Relation
import JobRoster.Proofs.Crate.Qualified

/-!
# What glob imports reach

In a crate that imports nothing but all of its own modules, a module has the names of the modules
that a chain of globs leads to. The search for a name is a walk through the modules in depth, in
which a look-up that has begun is not begun again, whether it still goes on or has ended. It misses
no module, however the globs form cycles: as long as nothing is found, the modules whose look-ups
have ended are exhausted, since look-ups have begun in all that their globs lead to.
-/

namespace JobRoster.Crate

open Files Relation Search Text

variable {c : Crate}

/-! ## Chains of globs -/

/-- A glob names a module of the crate by the module's path from the root. -/
def Glob.Names (c : Crate) (glob : Glob) (target : Nat) : Prop :=
  target < c.modules.length ∧ glob.target = ⟨false, "crate" :: (c.module target).path⟩

/-- A glob of a module leads to another one. -/
def GlobLeads (c : Crate) (module target : Nat) : Prop :=
  ∃ glob ∈ (c.module module).globs, glob.Names c target

instance (c : Crate) : DecidableRel c.GlobLeads := fun module target =>
  decidable_of_iff (∃ glob ∈ (c.module module).globs,
      target < c.modules.length ∧ glob.target = ⟨false, "crate" :: (c.module target).path⟩) Iff.rfl

/-- No chain of globs through distinct modules takes more steps. -/
def GlobChainsWithin (c : Crate) (steps : Nat) : Prop :=
  ∀ chain : List Nat, chain.Nodup → chain.IsChain c.GlobLeads → chain.length ≤ steps + 1

/-- A chain has no more steps than there are modules to be led to. -/
theorem globChainsWithin_length : c.GlobChainsWithin c.modules.length := by
  intro chain hnodup hchain
  cases chain with
  | nil => exact Nat.zero_le _
  | cons first rest =>
    have hled : ∀ target ∈ rest, target ∈ List.range c.modules.length := by
      clear hnodup
      induction rest generalizing first with
      | nil => simp
      | cons next rest ih =>
        rw [List.isChain_cons_cons] at hchain
        obtain ⟨⟨glob, -, hlt, -⟩, hrest⟩ := hchain
        exact List.forall_mem_cons.2 ⟨List.mem_range.2 hlt, ih next hrest⟩
    have hlength := (List.Nodup.subperm (List.nodup_cons.1 hnodup).2 hled).length_le
    rw [List.length_range] at hlength
    exact Nat.succ_le_succ hlength

/-- All that the crate imports are its own modules, each as a whole. Every module has a path of its
    own. -/
structure GlobsOnly (c : Crate) : Prop where
  distinct : (c.modules.map (·.path)).Nodup
  bindings : ∀ m ∈ c.modules, m.bindings = []
  macros : c.macroCrates = []
  globs : ∀ m ∈ c.modules, ∀ glob ∈ m.globs, ∃ target ∈ c.modules,
    glob.target = ⟨false, "crate" :: target.path⟩

instance : DecidablePred GlobsOnly := fun c =>
  decidable_of_iff ((c.modules.map (·.path)).Nodup ∧ (∀ m ∈ c.modules, m.bindings = []) ∧
      c.macroCrates = [] ∧ ∀ m ∈ c.modules, ∀ glob ∈ m.globs, ∃ target ∈ c.modules,
        glob.target = ⟨false, "crate" :: target.path⟩)
    ⟨fun ⟨distinct, bindings, macros, globs⟩ => ⟨distinct, bindings, macros, globs⟩,
      fun ⟨distinct, bindings, macros, globs⟩ => ⟨distinct, bindings, macros, globs⟩⟩

namespace GlobsOnly

variable (h : c.GlobsOnly)
include h

theorem binds_eq_false (module : Nat) (name : String) : (c.module module).binds name = false := by
  have hnone : (c.module module).bindings = [] := by
    rcases module_mem_or_eq_new (c := c) module with hmem | hnew
    · exact h.bindings _ hmem
    · rw [hnew]
      rfl
  rw [Module.binds, hnone, List.any_nil]

theorem bindingOf?_eq_none (module : Nat) (name : String) : bindingOf? c module name none = none :=
  bindingOf?_eq_none_iff.2 (h.binds_eq_false module name)

theorem settled (path : String) : Settled c path :=
  fun _ _ _ segment _ site _ _ => h.binds_eq_false site segment

theorem exists_names {module : Nat} {glob : Glob} (hglob : glob ∈ (c.module module).globs) :
    ∃ target, glob.Names c target := by
  rcases module_mem_or_eq_new (c := c) module with hmem | hnew
  · obtain ⟨m, hm, htarget⟩ := h.globs _ hmem glob hglob
    obtain ⟨target, hlt, rfl⟩ := List.getElem_of_mem hm
    exact ⟨target, hlt, by rw [htarget, module_of_getElem? (List.getElem?_eq_getElem hlt)]⟩
  · rw [hnew] at hglob
    cases hglob

theorem moduleNamed?_eq (htree : ModuleTree c.modules) {target : Nat}
    (hlt : target < c.modules.length) :
    c.moduleNamed? (c.canonicalIn (c.module target).path []) = some target :=
  moduleNamed?_path htree h.distinct (getElem?_module hlt)

theorem eq_of_names (htree : ModuleTree c.modules) {glob : Glob} {target other : Nat}
    (htarget : glob.Names c target) (hother : glob.Names c other) : other = target := by
  have hpath : (c.module other).path = (c.module target).path :=
    (List.cons.inj (ItemPath.mk.inj (hother.2.symm.trans htarget.2)).2).2
  have hnamed := h.moduleNamed?_eq htree hother.1
  rw [hpath, h.moduleNamed?_eq htree htarget.1] at hnamed
  exact (Option.some.inj hnamed).symm

/-- The path that a glob leads to is the module's, whatever is remembered. -/
theorem answer_names {glob : Glob} {target : Nat} (hnames : glob.Names c target)
    (budget module : Nat) :
    answer c (budget + 1) (.path module glob.target none) =
      pure (some (c.canonicalIn (c.module target).path [])) := by
  rw [answer_succ, answerBy, hnames.2]
  have hwritten : ∀ ask throughGlobs, resolveWritten c ask throughGlobs module
      ⟨false, "crate" :: (c.module target).path⟩ none =
        pure (some (c.canonicalIn [] (c.module target).path)) := fun _ _ => rfl
  rw [hwritten, pure_bind, canonicalIn_eq_extend, canonicalIn_eq_extend, List.nil_append,
    List.append_nil]
  exact followReexports_of_settled (h.settled _) _

end GlobsOnly

/-! ## How far a walk has come -/

namespace Memo

variable {memo : Memo} {name : String} {module other : Nat}

/-- A look-up of the name in the module has begun. It may have ended. -/
def Begun (memo : Memo) (name : String) (module : Nat) : Prop :=
  memo.find? ⟨module, name⟩ ≠ none

/-- No look-up of the name has found anything. -/
def Barren (memo : Memo) (name : String) : Prop :=
  ∀ module found, memo.find? ⟨module, name⟩ = some found → found = none

theorem barren_empty : Memo.empty.Barren name := by
  intro module found hfound
  rw [find?_empty] at hfound
  cases hfound

theorem begun_start :
    (memo.start ⟨module, name⟩).Begun name other ↔ other = module ∨ memo.Begun name other := by
  rw [Begun, find?_start]
  by_cases hsame : other = module
  · simp [hsame]
  · simp [hsame, Ne.symm hsame, Begun]

theorem begun_finish {answer : Option String} :
    (memo.finish ⟨module, name⟩ answer).Begun name other ↔ memo.Begun name other := by
  rw [Begun, find?_finish]
  split
  · rw [Ne, Option.map_eq_none_iff, Begun]
  · rfl

theorem Barren.start (h : memo.Barren name) : (memo.start ⟨module, name⟩).Barren name := by
  intro other found hfound
  rw [find?_start] at hfound
  split at hfound
  · exact (Option.some.inj hfound).symm
  · exact h other found hfound

theorem Barren.finish (h : memo.Barren name) :
    (memo.finish ⟨module, name⟩ none).Barren name := by
  intro other found hfound
  rw [find?_finish] at hfound
  split at hfound
  · obtain ⟨_, _, hnone⟩ := Option.map_eq_some_iff.1 hfound
    exact hnone.symm
  · exact h other found hfound

end Memo

/-- The modules that the globs of a module lead to do not declare the name, and look-ups of it have
    begun in them. -/
def Exhausted (c : Crate) (name : String) (memo : Memo) (module : Nat) : Prop :=
  ∀ target, c.GlobLeads module target →
    (c.module target).declares name = false ∧ memo.Begun name target

/-- A walk that has found nothing. The modules that it has come to are exhausted. -/
structure Passes (c : Crate) (name : String) (before after : Memo) : Prop where
  barren : after.Barren name
  begun : ∀ module, before.Begun name module → after.Begun name module
  exhausted : ∀ module, after.Begun name module →
    before.Begun name module ∨ Exhausted c name after module

namespace Passes

variable {name : String} {before between after : Memo}

theorem refl (h : before.Barren name) : Passes c name before before :=
  ⟨h, fun _ => id, fun _ => .inl⟩

theorem trans (h : Passes c name before between) (h' : Passes c name between after) :
    Passes c name before after where
  barren := h'.barren
  begun module hmodule := h'.begun module (h.begun module hmodule)
  exhausted module hmodule := by
    obtain hbetween | hexhausted := h'.exhausted module hmodule
    · refine (h.exhausted module hbetween).imp id fun hexhausted target htarget => ?_
      exact ⟨(hexhausted target htarget).1, h'.begun target (hexhausted target htarget).2⟩
    · exact .inr hexhausted

/-- A look-up ends: the module in which it began is exhausted. -/
theorem finish {module : Nat} (h : Passes c name (before.start ⟨module, name⟩) after)
    (hmodule : Exhausted c name after module) :
    Passes c name before (after.finish ⟨module, name⟩ none) where
  barren := h.barren.finish
  begun other hother := Memo.begun_finish.2 (h.begun other (Memo.begun_start.2 (.inr hother)))
  exhausted other hother := by
    have hlasting : ∀ {other}, Exhausted c name after other →
        Exhausted c name (after.finish ⟨module, name⟩ none) other := fun hexhausted target htarget =>
      ⟨(hexhausted target htarget).1, Memo.begun_finish.2 (hexhausted target htarget).2⟩
    obtain hbegun | hexhausted := h.exhausted other (Memo.begun_finish.1 hother)
    · obtain rfl | hbefore := Memo.begun_start.1 hbegun
      · exact .inr (hlasting hmodule)
      · exact .inl hbefore
    · exact .inr (hlasting hexhausted)

end Passes

/-- The name in a module that declares it and that a chain of globs leads to. -/
def IsBehind (c : Crate) (name : String) (module : Nat) (r : String) : Prop :=
  ∃ target, TransGen c.GlobLeads module target ∧ (c.module target).declares name = true ∧
    r = c.canonicalIn (c.module target).path [name]

theorem IsBehind.head {name r : String} {module next : Nat} (hlead : c.GlobLeads module next)
    (h : c.IsBehind name next r) : c.IsBehind name module r := by
  obtain ⟨target, hchain, hrest⟩ := h
  exact ⟨target, .head hlead hchain, hrest⟩

/-- From a memo the search finds the name behind the module, or finds nothing, and then `P` holds of
    the memo that it leaves. -/
def Walks (c : Crate) (name : String) (module : Nat) (P : Memo → Prop) (s : Search)
    (memo : Memo) : Prop :=
  (∀ r, (s memo).1 = some r → c.IsBehind name module r) ∧
    ((s memo).1 = none → Passes c name memo (s memo).2 ∧ P (s memo).2)

namespace Walks

variable {name : String} {module : Nat} {P Q : Memo → Prop} {memo : Memo}

theorem mono {s : Search} (h : Walks c name module P s memo)
    (hP : ∀ after, Passes c name memo after → P after → Q after) : Walks c name module Q s memo := by
  refine ⟨h.1, fun hnone => ?_⟩
  obtain ⟨hpasses, hafter⟩ := h.2 hnone
  exact ⟨hpasses, hP _ hpasses hafter⟩

/-- What is found is kept, and else the walk goes on. -/
theorem orElse {s : Search} {f : Option String → Search} (h : Walks c name module P s memo)
    (hsome : ∀ found, f (some found) = pure (some found))
    (hnone : ∀ after, Passes c name memo after → P after → Walks c name module Q (f none) after) :
    Walks c name module Q (s >>= f) memo := by
  rw [Walks, bind_apply]
  cases hanswer : (s memo).1 with
  | some found =>
    rw [hsome]
    refine ⟨fun r hr => ?_, nofun⟩
    exact h.1 r (hanswer.trans hr)
  | none =>
    obtain ⟨hpasses, hafter⟩ := h.2 hanswer
    obtain ⟨hbehind, hrest⟩ := hnone _ hpasses hafter
    refine ⟨hbehind, fun hlast => ?_⟩
    obtain ⟨hmore, hQ⟩ := hrest hlast
    exact ⟨hpasses.trans hmore, hQ⟩

end Walks

/-! ## The walk -/

section Walk

variable (h : c.GlobsOnly) (htree : ModuleTree c.modules) {name : String}
include h

/-- One glob is followed. A glob that leads back to its own module is not. -/
theorem walks_searchGlob {ask : Ask} {module target : Nat} (hlead : c.GlobLeads module target)
    {memo : Memo} (hbarren : memo.Barren name) (hbegun : memo.Begun name module)
    (hwithin : Walks c name target (·.Begun name target) (ask (.glob target name)) memo) :
    Walks c name module (fun after => (c.module target).declares name = false ∧
      after.Begun name target)
      (searchGlob c ask module name (c.canonicalIn (c.module target).path []) target) memo := by
  unfold searchGlob
  rw [h.binds_eq_false, Bool.or_false]
  cases hdeclares : (c.module target).declares name with
  | true =>
    refine ⟨fun r hr => ?_, nofun⟩
    refine ⟨target, .single hlead, hdeclares, (Option.some.inj hr).symm.trans ?_⟩
    exact extend_canonicalIn _ _ _
  | false =>
    split
    · cases ‹false = true›
    · split
      next hsame =>
        subst hsame
        exact ⟨nofun, fun _ => ⟨.refl hbarren, rfl, hbegun⟩⟩
      next =>
        refine ⟨fun r hr => (hwithin.1 r hr).head hlead, fun hnone => ?_⟩
        obtain ⟨hpasses, htarget⟩ := hwithin.2 hnone
        exact ⟨hpasses, rfl, htarget⟩

include htree

/-- The globs of a module are followed one after another. -/
theorem walks_searchGlobs {ask : Ask} {budget module : Nat} {running : List Nat}
    (hask : ask = answer c (budget + 1))
    (hwithin : ∀ target, c.GlobLeads module target → ∀ memo : Memo, memo.Barren name →
      (∀ other ∈ module :: running, memo.Begun name other) →
        Walks c name target (·.Begun name target) (ask (.glob target name)) memo)
    {globs : List Glob} (hsub : globs ⊆ (c.module module).globs) {memo : Memo}
    (hbarren : memo.Barren name) (hbegun : ∀ other ∈ module :: running, memo.Begun name other) :
    Walks c name module (fun after => ∀ glob ∈ globs, ∀ target, glob.Names c target →
      (c.module target).declares name = false ∧ after.Begun name target)
      (searchGlobs c ask module name [] globs) memo := by
  induction globs generalizing memo with
  | nil => exact ⟨nofun, fun _ => ⟨.refl hbarren, by simp⟩⟩
  | cons glob globs ih =>
    obtain ⟨hglob, hglobs⟩ := List.cons_subset.1 hsub
    obtain ⟨target, hnames⟩ := h.exists_names hglob
    have hlead : c.GlobLeads module target := ⟨glob, hglob, hnames⟩
    have hpath : ask (.path module glob.target none) =
        pure (some (c.canonicalIn (c.module target).path [])) := by
      rw [hask]
      exact h.answer_names hnames budget module
    rw [searchGlobs, hpath, pure_bind]
    simp only [h.moduleNamed?_eq htree hnames.1]
    have hfirst := walks_searchGlob h hlead hbarren (hbegun module List.mem_cons_self)
      (hwithin target hlead memo hbarren hbegun)
    refine hfirst.orElse (fun _ => rfl) ?_
    intro between hpasses hdone
    have hstill : ∀ other ∈ module :: running, between.Begun name other :=
      fun other hother => hpasses.begun other (hbegun other hother)
    apply (ih hglobs hpasses.barren hstill).mono
    intro after hmore hrest
    refine List.forall_mem_cons.2 ⟨fun other hother => ?_, hrest⟩
    obtain rfl : other = target := h.eq_of_names htree hnames hother
    exact ⟨hdone.1, hmore.begun other hdone.2⟩

/-- A look-up is one of those that go on, or has ended, or walks through what the globs lead to. The
    look-ups that go on form a chain, so the budget is enough for them. -/
theorem walks_globLookup {steps : Nat} (hchains : c.GlobChainsWithin steps) {budget module : Nat}
    {running : List Nat} (hbudget : running.length + budget = steps + 1) (hnodup : running.Nodup)
    (hchain : (module :: running).IsChain fun inner outer => c.GlobLeads outer inner)
    {memo : Memo} (hbarren : memo.Barren name) (hbegun : ∀ other ∈ running, memo.Begun name other) :
    Walks c name module (·.Begun name module) (globLookup c (answer c budget) module name) memo := by
  rw [Walks, globLookup_apply]
  cases hfind : memo.find? ⟨module, name⟩ with
  | some known =>
    obtain rfl : known = none := hbarren module known hfind
    refine ⟨nofun, fun _ => ⟨.refl hbarren, ?_⟩⟩
    rw [Memo.Begun, hfind]
    exact Option.some_ne_none none
  | none =>
    have hnew : module ∉ running := fun hrunning => hbegun module hrunning hfind
    have hnodup' : (module :: running).Nodup := List.nodup_cons.2 ⟨hnew, hnodup⟩
    have hlength : running.length + 1 ≤ steps + 1 := by
      have hle := hchains (module :: running).reverse (List.nodup_reverse.2 hnodup')
        (List.isChain_reverse.2 hchain)
      rwa [List.length_reverse] at hle
    obtain ⟨budget, rfl⟩ : ∃ fewer, budget = fewer + 1 := ⟨budget - 1, by omega⟩
    have hbegun' : ∀ other ∈ module :: running, (memo.start ⟨module, name⟩).Begun name other := by
      intro other hother
      exact Memo.begun_start.2 ((List.mem_cons.1 hother).imp id (hbegun other))
    have hbudget' : (module :: running).length + budget = steps + 1 := by
      rw [List.length_cons]
      omega
    have hwalks := walks_searchGlobs h htree rfl (fun target hlead memo' hbarren' hbegun'' =>
        walks_globLookup hchains hbudget' hnodup' (List.isChain_cons_cons.2 ⟨hlead, hchain⟩)
          hbarren' hbegun'')
      (List.Subset.refl _) hbarren.start hbegun'
    refine ⟨hwalks.1, fun hnone => ?_⟩
    obtain ⟨hpasses, hdone⟩ := hwalks.2 hnone
    have hexhausted : Exhausted c name _ module := fun target ⟨glob, hglob, hnames⟩ =>
      hdone glob hglob target hnames
    have hfinish := hpasses.finish hexhausted
    rw [← (hnone : (searchGlobs _ _ _ _ _ _ _).1 = none)] at hfinish
    exact ⟨hfinish, Memo.begun_finish.2 (hpasses.begun module (Memo.begun_start.2 (.inl rfl)))⟩
termination_by budget

end Walk

/-- What a walk from the start has not found is nowhere that globs lead to. -/
theorem Passes.declares_eq_false {name : String} {after : Memo}
    (h : Passes c name Memo.empty after) {module target : Nat} (hbegun : after.Begun name module)
    (hmodule : (c.module module).declares name = false)
    (hchain : ReflTransGen c.GlobLeads module target) :
    (c.module target).declares name = false := by
  have hall : (c.module target).declares name = false ∧ after.Begun name target := by
    induction hchain with
    | refl => exact ⟨hmodule, hbegun⟩
    | tail _ hlead ih =>
      obtain hbefore | hexhausted := h.exhausted _ ih.2
      · exact absurd (Memo.find?_empty _) hbefore
      · exact hexhausted _ hlead
  exact hall.1

/-! ## Names through globs -/

/-- A name that a module does not declare is looked for through its globs alone. -/
theorem GlobsOnly.answer_name (h : c.GlobsOnly) {module : Nat} {name : String}
    (hname : name ∉ pathKeywords) (hcrates : c.isExtern name = false)
    (hmodule : (c.module module).declares name = false) (budget : Nat) :
    answer c (budget + 1) (.path module ⟨false, [name]⟩ none) =
      globLookup c (answer c budget) module name := by
  rw [answer_succ, answerBy, resolveWritten_of_not_keyword hname]
  unfold resolveRelative
  simp only [h.bindingOf?_eq_none, hmodule, hcrates, h.macros, Bool.false_eq_true, if_false,
    extend_nil, bind_assoc]
  refine bind_eq_self ?_ fun _ found _ => ?_
  · rfl
  · exact followReexports_of_settled (h.settled found) _

/-- Where a crate imports nothing but modules of its own as a whole, and no chain of globs through
    distinct modules has more than 31 steps, a name that one module declares denotes the same in
    all the modules from which globs lead there, and nothing in any other. -/
theorem resolvePath_of_globsOnly {sources : Sources} {crate : String} {dependencies : List String}
    {root : FilePath} (hload : load sources crate dependencies root = .ok c) (h : c.GlobsOnly)
    (hchains : c.GlobChainsWithin 31) {name : String} (hname : name ∉ pathKeywords)
    (hcrates : c.isExtern name = false) {declaring : Nat}
    (hdeclares : ∀ other, (c.module other).declares name = true ↔ other = declaring)
    (module : Nat) :
    (ReflTransGen c.GlobLeads module declaring → resolvePath c module ⟨false, [name]⟩ =
      some (c.canonicalIn (c.module declaring).path [name])) ∧
    (¬ ReflTransGen c.GlobLeads module declaring → resolvePath c module ⟨false, [name]⟩ = none) := by
  have htree : ModuleTree c.modules := moduleTree_of_load hload
  rw [resolvePath, searchBudget]
  by_cases hown : module = declaring
  · subst hown
    refine ⟨fun _ => ?_, fun hunreached => absurd .refl hunreached⟩
    rw [answer_name_of_declares hname (h.bindingOf?_eq_none _ _) ((hdeclares module).2 rfl),
      followReexports_of_settled (h.settled _)]
    rfl
  · have hmodule : (c.module module).declares name = false :=
      Bool.eq_false_iff.2 fun hdeclared => hown ((hdeclares module).1 hdeclared)
    have hwalks : Walks c name module (·.Begun name module) (globLookup c (answer c 32) module name)
        Memo.empty := walks_globLookup h htree hchains rfl .nil (.singleton _) Memo.barren_empty
          (List.forall_mem_nil _)
    obtain ⟨hfound, hmissed⟩ := hwalks
    rw [h.answer_name hname hcrates hmodule]
    cases hanswer : (globLookup c (answer c 32) module name Memo.empty).1 with
    | some r =>
      obtain ⟨target, hchain, htarget, rfl⟩ := hfound r hanswer
      obtain rfl : target = declaring := (hdeclares target).1 htarget
      exact ⟨fun _ => rfl, fun hunreached => absurd hchain.to_reflTransGen hunreached⟩
    | none =>
      obtain ⟨hpasses, hbegun⟩ := hmissed hanswer
      refine ⟨fun hchain => ?_, fun _ => rfl⟩
      have hundeclared := hpasses.declares_eq_false hbegun hmodule hchain
      rw [(hdeclares declaring).2 rfl] at hundeclared
      cases hundeclared

/-- The globs of the root and of the module `hub` lead to each other. -/
theorem resolvePath_of_globsOnly_cycle :
    ∃ c, load (.ofTexts [(⟨"lib.rs"⟩, "mod hub; mod jobs; mod plain; pub use crate::hub::*;"),
        (⟨"hub.rs"⟩, "pub use crate::*; pub use crate::jobs::*;"),
        (⟨"jobs.rs"⟩, "use crate::*; pub struct Nightly;"), (⟨"plain.rs"⟩, "struct Weekly;")])
        "app" ["jobkit"] ⟨"lib.rs"⟩ = .ok c ∧
      c.GlobsOnly ∧ c.GlobChainsWithin 31 ∧ "Nightly" ∉ pathKeywords ∧
      c.isExtern "Nightly" = false ∧ (∀ other, (c.module other).declares "Nightly" ↔ other = 2) ∧
      c.GlobLeads 0 1 ∧ c.GlobLeads 1 0 ∧
      resolvePath c 0 ⟨false, ["Nightly"]⟩ = some (c.canonicalIn (c.module 2).path ["Nightly"]) ∧
      resolvePath c 3 ⟨false, ["Nightly"]⟩ = none := by
  refine exists_loaded_of_any (fun c => c.GlobsOnly ∧ c.modules.length = 4 ∧
      c.isExtern "Nightly" = false ∧
      (∀ other ∈ List.range 4, (c.module other).declares "Nightly" ↔ other = 2) ∧
      c.GlobLeads 0 1 ∧ c.GlobLeads 1 0 ∧ c.GlobLeads 1 2 ∧ (c.module 3).globs.isEmpty)
    (by decide +kernel) fun c hload htest => ?_
  obtain ⟨hglobs, hlength, hcrates, hdeclares, hout, hback, hdown, hnone⟩ := of_decide_eq_true htest
  have hname : "Nightly" ∉ pathKeywords := by decide
  have hchains : c.GlobChainsWithin 31 := fun chain hnodup hchain =>
    (globChainsWithin_length chain hnodup hchain).trans (by omega)
  have hone : ∀ other, (c.module other).declares "Nightly" = true ↔ other = 2 := by
    intro other
    by_cases hother : other < 4
    · exact hdeclares other (List.mem_range.2 hother)
    · rw [module_of_length_le (by omega)]
      exact ⟨nofun, by omega⟩
  have hreach : ReflTransGen c.GlobLeads 0 2 := .head hout (.single hdown)
  have hmiss : ¬ ReflTransGen c.GlobLeads 3 2 := by
    intro hchain
    obtain hsame | ⟨next, ⟨glob, hglob, -⟩, -⟩ := hchain.cases_head
    · cases hsame
    · rw [List.isEmpty_iff.1 hnone] at hglob
      cases hglob
  exact ⟨hglobs, hchains, hname, hcrates, hone, hout, hback,
    (resolvePath_of_globsOnly hload hglobs hchains hname hcrates hone 0).1 hreach,
    (resolvePath_of_globsOnly hload hglobs hchains hname hcrates hone 3).2 hmiss⟩

end JobRoster.Crate
