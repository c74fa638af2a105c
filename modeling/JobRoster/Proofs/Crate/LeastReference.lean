import Mathlib.Logic.Relation
import JobRoster.Proofs.Crate.Reference
import JobRoster.Proofs.Text.ByteOrder

/-!
# The first of the exported paths

A declaration that the root can see, in a module that it cannot, is named by the first of the paths
under which it is exported: one of the fewest segments, and of these the one whose bytes come first.
There is one such path if there is any, so it makes no difference in which order modules, bindings
and globs are visited to find it.
-/

namespace JobRoster.Crate

open Files Relation Text

variable {c : Crate}

/-! ## The first of some candidates -/

namespace Candidate

variable {a b candidate best : Candidate} {candidates : List Candidate} {P : Candidate → Prop}

/-- A candidate has fewer segments than another one, or as many and bytes that come before. -/
def Before (a b : Candidate) : Prop :=
  a.length < b.length ∨ a.length = b.length ∧ bytes a.text < bytes b.text

theorem compare_eq_lt_iff : a.compare b = .lt ↔ a.Before b := by
  rw [compare, Ordering.then_eq_lt, Nat.compare_eq_lt, Nat.compare_eq_eq, compare_lt_iff_lt, Before,
    bytes_lt_bytes_iff]

theorem before_irrefl : ¬ a.Before a := by
  simp [Before]

theorem Before.trans {d : Candidate} (h : a.Before b) (h' : b.Before d) : a.Before d := by
  unfold Before at *
  rw [bytes_lt_bytes_iff] at *
  rcases h with hlt | ⟨heq, htext⟩
  · left
    omega
  · rcases h' with hlt' | ⟨heq', htext'⟩
    · left
      omega
    · exact .inr ⟨heq.trans heq', htext.trans htext'⟩

/-- Of two candidates one is before the other, or they are the same. -/
theorem eq_or_before (a b : Candidate) : a = b ∨ a.Before b ∨ b.Before a := by
  unfold Before
  rw [bytes_lt_bytes_iff, bytes_lt_bytes_iff]
  rcases Nat.lt_trichotomy a.length b.length with hlt | heq | hgt
  · exact .inr (.inl (.inl hlt))
  · rcases lt_trichotomy a.text b.text with hlt | htext | hgt
    · exact .inr (.inl (.inr ⟨heq, hlt⟩))
    · left
      cases a
      cases b
      simp_all
    · exact .inr (.inr (.inr ⟨heq.symm, hgt⟩))
  · exact .inr (.inr (.inl hgt))

/-- A candidate with a property, and no other candidate that has it is before this one. -/
def IsFirst (P : Candidate → Prop) (best : Candidate) : Prop :=
  P best ∧ ∀ other, P other → other = best ∨ best.Before other

theorem IsFirst.unique (h : IsFirst P a) (h' : IsFirst P b) : a = b := by
  rcases h.2 b h'.1 with heq | hbefore
  · exact heq.symm
  · rcases h'.2 a h.1 with heq | hafter
    · exact heq
    · exact absurd (hbefore.trans hafter) before_irrefl

/-- The answer to a search for the first candidate with a property. -/
def FirstOf (P : Candidate → Prop) : Option Candidate → Prop
  | none => ∀ candidate, ¬ P candidate
  | some best => IsFirst P best

theorem FirstOf.eq {answer answer' : Option Candidate} (h : FirstOf P answer)
    (h' : FirstOf P answer') : answer = answer' := by
  cases answer with
  | none =>
    cases answer' with
    | none => rfl
    | some best => exact absurd h'.1 (h best)
  | some best =>
    cases answer' with
    | none => exact absurd h.1 (h' best)
    | some best' => exact congrArg some (IsFirst.unique h h')

/-! ### One more candidate -/

section More

variable (h : IsFirst P best)
include h

theorem IsFirst.keep (hkeep : candidate = best ∨ best.Before candidate) :
    IsFirst (fun other => P other ∨ other = candidate) best := by
  refine ⟨.inl h.1, ?_⟩
  rintro other (hother | rfl)
  · exact h.2 other hother
  · exact hkeep

theorem IsFirst.replace (hreplace : best = candidate ∨ candidate.Before best) :
    IsFirst (fun other => P other ∨ other = candidate) candidate := by
  refine ⟨.inr rfl, ?_⟩
  rintro other (hother | rfl)
  · rcases hreplace with rfl | hbefore
    · exact h.2 other hother
    · rcases h.2 other hother with rfl | hafter
      · exact .inr hbefore
      · exact .inr (hbefore.trans hafter)
  · exact .inl rfl

end More

theorem isFirst_single (hnone : ∀ other, ¬ P other) :
    IsFirst (fun other => P other ∨ other = candidate) candidate :=
  ⟨.inr rfl, fun other hother => .inl (hother.resolve_left (hnone other))⟩

theorem firstOf_least? (candidates : List Candidate) :
    FirstOf (· ∈ candidates) (least? candidates) := by
  induction candidates with
  | nil => simp [least?, FirstOf]
  | cons candidate candidates ih =>
    simp only [List.mem_cons, or_comm (a := _ = candidate)]
    rw [least?]
    cases hkept : least? candidates with
    | none =>
      rw [hkept] at ih
      exact isFirst_single ih
    | some best =>
      rw [hkept] at ih
      dsimp only
      split
      next hlt => exact IsFirst.keep ih (.inr (compare_eq_lt_iff.1 hlt))
      next hnot =>
        rw [compare_eq_lt_iff] at hnot
        apply IsFirst.replace ih
        exact (eq_or_before best candidate).imp id (Or.resolve_left · hnot)

/-- What a search keeps when it comes to a further candidate: the new one only if it is before the
    one kept so far. -/
def consider (kept : Option Candidate) (candidate : Candidate) : Option Candidate :=
  match kept with
  | some best => if candidate.compare best = .lt then some candidate else some best
  | none => some candidate

theorem firstOf_consider {kept : Option Candidate} (h : FirstOf P kept) (candidate : Candidate) :
    FirstOf (fun other => P other ∨ other = candidate) (consider kept candidate) := by
  cases kept with
  | none => exact isFirst_single h
  | some best =>
    unfold consider
    dsimp only
    split
    next hlt => exact IsFirst.replace h (.inr (compare_eq_lt_iff.1 hlt))
    next hnot =>
      rw [compare_eq_lt_iff] at hnot
      apply IsFirst.keep h
      exact (eq_or_before candidate best).imp id (Or.resolve_left · hnot)

/-- A search that goes through candidates one after another keeps the first of all of them. -/
theorem firstOf_foldl_consider {kept : Option Candidate} (h : FirstOf P kept)
    (candidates : List Candidate) :
    FirstOf (fun other => P other ∨ other ∈ candidates) (candidates.foldl consider kept) := by
  induction candidates generalizing P kept with
  | nil => simpa using h
  | cons candidate candidates ih =>
    simp only [List.mem_cons, ← or_assoc]
    exact ih (firstOf_consider h candidate)

end Candidate

/-! ## Modules that are open to the root -/

/-- One module is declared in the other. -/
def LiesIn (c : Crate) (inner outer : Nat) : Prop :=
  (c.module inner).parent = some outer

/-- The root can see a module and all modules around it. -/
def OpenToRoot (c : Crate) (module : Nat) : Prop :=
  ∀ outer, ReflTransGen c.LiesIn module outer → (c.module outer).scope.visibleFromRoot = true

theorem openToRoot_iff_of_parent {module parent : Nat} (hparent : c.LiesIn module parent) :
    c.OpenToRoot module ↔
      (c.module module).scope.visibleFromRoot = true ∧ c.OpenToRoot parent := by
  constructor
  · intro h
    exact ⟨h module .refl, fun outer hchain => h outer (.head hparent hchain)⟩
  · rintro ⟨hown, hrest⟩ outer hchain
    rcases hchain.cases_head with rfl | ⟨next, hnext, hchain⟩
    · exact hown
    · obtain rfl : parent = next := Option.some.inj (hparent.symm.trans hnext)
      exact hrest outer hchain

theorem openToRoot_iff_of_no_parent {module : Nat} (hparent : (c.module module).parent = none) :
    c.OpenToRoot module ↔ (c.module module).scope.visibleFromRoot = true := by
  constructor
  · intro h
    exact h module .refl
  · intro hown outer hchain
    rcases hchain.cases_head with rfl | ⟨next, hnext, -⟩
    · exact hown
    · cases hparent.symm.trans hnext

theorem isReachable_iff_openToRoot (htree : ModuleTree c.modules)
    (hroot : ∃ m, c.modules[0]? = some m ∧ m.parent = none ∧ m.scope = .crate) (module : Nat) :
    isReachable c module = true ↔ c.OpenToRoot module := by
  -- a module comes after the one around it
  induction module using Nat.strongRecOn with
  | ind module ih =>
    cases hparent : (c.module module).parent with
    | none =>
      rw [openToRoot_iff_of_no_parent hparent, isReachable, ancestry, ancestryWithin,
        parent_module, hparent]
      simp
    | some parent =>
      obtain ⟨m, hm, hup⟩ := Option.bind_eq_some_iff.1 ((parent_module module).trans hparent)
      have hlt : parent < module := lt_of_parent htree hroot hm hup
      rw [openToRoot_iff_of_parent hparent, ← ih parent hlt, isReachable,
        ancestry_of_parent htree hroot hm hup, List.all_cons, Bool.and_eq_true, ← isReachable]

/-! ## Exported paths -/

/-- A module exports a declaration under a name: by a binding of that name that denotes it, or under
    the declaration's own name, which stands for nothing else there, by a glob of the module that
    declares it. The root can see the binding or the glob. -/
inductive ExportsAs (c : Crate) (decl : Decl) (module : Nat) : String → Prop where
  | binding {binding : Binding} (hbinding : binding ∈ (c.module module).bindings)
    (hvisible : binding.scope.visibleFromRoot = true)
    (hdenotes : resolvePath c module (ItemPath.ofName binding.name) = some decl.identity) :
    ExportsAs c decl module binding.name
  | glob {glob : Glob} (hundeclared : (c.module module).declares decl.name = false)
    (hunbound : (c.module module).binds decl.name = false)
    (hglob : glob ∈ (c.module module).globs) (hvisible : glob.scope.visibleFromRoot = true)
    (hdenotes : resolvePath c module glob.target =
      some (c.canonicalIn (c.module decl.module).path [])) :
    ExportsAs c decl module decl.name

/-- The path to a name by the way down to a module. -/
def candidateAt (c : Crate) (module : Nat) (name : String) : Candidate :=
  ⟨((c.module module).path ++ [name]).length, c.canonicalIn (c.module module).path [name]⟩

/-- A path by which a module that is open to the root exports a declaration. -/
def IsExport (c : Crate) (decl : Decl) (candidate : Candidate) : Prop :=
  ∃ module name, c.OpenToRoot module ∧ c.ExportsAs decl module name ∧
    candidate = c.candidateAt module name

theorem exportsAs_iff {decl : Decl} {module : Nat} {name : String} :
    c.ExportsAs decl module name ↔
      name ∈ boundNames c decl module ∨ isGlobExported c decl module = true ∧ name = decl.name := by
  rw [mem_boundNames_iff, isGlobExported_iff]
  constructor
  · intro h
    cases h with
    | binding hbinding hvisible hdenotes => exact .inl ⟨_, hbinding, hvisible, rfl, hdenotes⟩
    | glob hundeclared hunbound hglob hvisible hdenotes =>
      exact .inr ⟨⟨hundeclared, hunbound, _, hglob, hvisible, hdenotes⟩, rfl⟩
  · rintro (⟨binding, hbinding, hvisible, rfl, hdenotes⟩ |
      ⟨⟨hundeclared, hunbound, glob, hglob, hvisible, hdenotes⟩, rfl⟩)
    · exact .binding hbinding hvisible hdenotes
    · exact .glob hundeclared hunbound hglob hvisible hdenotes

theorem ExportsAs.lt_length {decl : Decl} {module : Nat} {name : String}
    (h : c.ExportsAs decl module name) : module < c.modules.length := by
  by_contra hge
  have hnew := module_of_length_le (Nat.le_of_not_lt hge)
  cases h with
  | binding hbinding => simp [hnew, Module.new] at hbinding
  | glob _ _ hglob => simp [hnew, Module.new] at hglob

/-! ## Orders of visiting -/

/-- An order in which the modules, and the bindings and globs of each, are visited. -/
structure Visit (c : Crate) where
  modules : List Nat
  bindings : Nat → List Binding
  globs : Nat → List Glob
  modules_perm : modules.Perm (List.range c.modules.length)
  bindings_perm (module : Nat) : (bindings module).Perm (c.module module).bindings
  globs_perm (module : Nat) : (globs module).Perm (c.module module).globs

namespace Visit

/-- All is visited in the order in which it is written. -/
instance : Inhabited (Visit c) :=
  ⟨List.range c.modules.length, fun module => (c.module module).bindings,
    fun module => (c.module module).globs, .refl _, fun _ => .refl _, fun _ => .refl _⟩

variable (visit : Visit c) (decl : Decl)

/-- The exported paths that a search comes to in a module, one for each binding and each glob. -/
def exportsFrom (module : Nat) : List Candidate :=
  if isReachable c module then
    let bound := (visit.bindings module).filter fun binding => binding.scope.visibleFromRoot &&
      resolvePath c module (ItemPath.ofName binding.name) = some decl.identity
    let globbed :=
      if (c.module module).declares decl.name || (c.module module).binds decl.name then []
      else (visit.globs module).filter fun glob => glob.scope.visibleFromRoot &&
        resolvePath c module glob.target = some (c.canonicalIn (c.module decl.module).path [])
    bound.map (fun binding => c.candidateAt module binding.name) ++
      globbed.map fun _ => c.candidateAt module decl.name
  else []

/-- The path by which the root names a declaration, as a search finds it that visits the modules,
    bindings and globs in an order. -/
def referencePath? : Option String :=
  if !decl.scope.visibleFromRoot then none
  else if isReachable c decl.module then some decl.identity
  else
    ((visit.modules.flatMap (visit.exportsFrom decl)).foldl Candidate.consider none).map (·.text)

theorem mem_exportsFrom_iff {module : Nat} {candidate : Candidate} :
    candidate ∈ visit.exportsFrom decl module ↔ isReachable c module = true ∧
      ∃ name, c.ExportsAs decl module name ∧ candidate = c.candidateAt module name := by
  unfold exportsFrom
  split
  next hreachable =>
    simp only [List.mem_append, List.mem_map, List.mem_filter, (visit.bindings_perm module).mem_iff,
      Bool.and_eq_true, decide_eq_true_eq, hreachable, true_and]
    constructor
    · rintro (⟨binding, ⟨hbinding, hvisible, hdenotes⟩, rfl⟩ | ⟨glob, hglob, rfl⟩)
      · exact ⟨_, .binding hbinding hvisible hdenotes, rfl⟩
      · split at hglob
        next => cases hglob
        next hfree =>
          rw [Bool.not_eq_true, Bool.or_eq_false_iff] at hfree
          simp only [List.mem_filter, (visit.globs_perm module).mem_iff, Bool.and_eq_true,
            decide_eq_true_eq] at hglob
          exact ⟨_, .glob hfree.1 hfree.2 hglob.1 hglob.2.1 hglob.2.2, rfl⟩
    · rintro ⟨name, hexports, rfl⟩
      cases hexports with
      | binding hbinding hvisible hdenotes => exact .inl ⟨_, ⟨hbinding, hvisible, hdenotes⟩, rfl⟩
      | @glob glob hundeclared hunbound hglob hvisible hdenotes =>
        refine .inr ⟨glob, ?_, rfl⟩
        simp [hundeclared, hunbound, (visit.globs_perm module).mem_iff, hglob, hvisible, hdenotes]
  next hclosed => simp [hclosed]

end Visit

/-! ## Reference paths -/

section Tree

variable (htree : ModuleTree c.modules)
  (hroot : ∃ m, c.modules[0]? = some m ∧ m.parent = none ∧ m.scope = .crate)
include htree hroot

theorem isExport_iff {decl : Decl} {candidate : Candidate} :
    c.IsExport decl candidate ↔ ∃ module < c.modules.length, isReachable c module = true ∧
      ∃ name, c.ExportsAs decl module name ∧ candidate = c.candidateAt module name := by
  constructor
  · rintro ⟨module, name, hopen, hexports, rfl⟩
    exact ⟨module, hexports.lt_length, (isReachable_iff_openToRoot htree hroot module).2 hopen,
      name, hexports, rfl⟩
  · rintro ⟨module, -, hreachable, name, hexports, rfl⟩
    exact ⟨module, name, (isReachable_iff_openToRoot htree hroot module).1 hreachable, hexports, rfl⟩

theorem isExport_iff_mem {decl : Decl} {candidate : Candidate} :
    c.IsExport decl candidate ↔
      candidate ∈ (List.range c.modules.length).flatMap (exportsFrom c decl) := by
  rw [isExport_iff htree hroot, List.mem_flatMap]
  simp only [List.mem_range, mem_exportsFrom_iff, exportsAs_iff, candidateAt, List.length_append,
    List.length_singleton]

theorem isExport_iff_mem_visit {decl : Decl} (visit : Visit c) {candidate : Candidate} :
    c.IsExport decl candidate ↔
      candidate ∈ visit.modules.flatMap (visit.exportsFrom decl) := by
  rw [isExport_iff htree hroot, List.mem_flatMap]
  simp only [visit.modules_perm.mem_iff, List.mem_range, visit.mem_exportsFrom_iff]

end Tree

/-- A search in any order keeps the first of the exported paths, as does one among all of them. -/
theorem referencePath?_visit (htree : ModuleTree c.modules)
    (hroot : ∃ m, c.modules[0]? = some m ∧ m.parent = none ∧ m.scope = .crate) (decl : Decl)
    (visit : Visit c) : visit.referencePath? decl = c.referencePath? decl := by
  have hnone : Candidate.FirstOf (fun _ => False) none := fun _ => id
  have hkept := Candidate.firstOf_foldl_consider hnone
    (visit.modules.flatMap (visit.exportsFrom decl))
  have hleast := Candidate.firstOf_least?
    ((List.range c.modules.length).flatMap (exportsFrom c decl))
  simp only [false_or, ← isExport_iff_mem_visit htree hroot] at hkept
  simp only [← isExport_iff_mem htree hroot] at hleast
  rw [Visit.referencePath?, Crate.referencePath?, hkept.eq hleast]

/-- The root cannot name a declaration that it cannot see. It names one by its identity where it can
    see all the modules around it, and otherwise by the first of the paths under which it is
    exported, if there are any, whatever the order in which it goes through them. -/
theorem referencePath?_eq_first {sources : Sources} {name : String} {dependencies : List String}
    {root : FilePath} (hload : load sources name dependencies root = .ok c) (decl : Decl) :
    (decl.scope.visibleFromRoot = false → c.referencePath? decl = none) ∧
    (decl.scope.visibleFromRoot = true → c.OpenToRoot decl.module →
      c.referencePath? decl = some decl.identity) ∧
    (decl.scope.visibleFromRoot = true → ¬ c.OpenToRoot decl.module →
      (∀ path, c.referencePath? decl = some path ↔
        ∃ best, Candidate.IsFirst (c.IsExport decl) best ∧ path = best.text) ∧
      (c.referencePath? decl = none ↔ ∀ candidate, ¬ c.IsExport decl candidate)) ∧
    ∀ visit : Visit c, visit.referencePath? decl = c.referencePath? decl := by
  have htree : ModuleTree c.modules := moduleTree_of_load hload
  have hroot := exists_root_of_load hload
  refine ⟨fun hhidden => ?_, fun hvisible hopen => ?_, fun hvisible hclosed => ?_,
    referencePath?_visit htree hroot decl⟩
  · simp [referencePath?, hhidden]
  · simp [referencePath?, hvisible, (isReachable_iff_openToRoot htree hroot _).2 hopen]
  · have hleast := Candidate.firstOf_least?
      ((List.range c.modules.length).flatMap (exportsFrom c decl))
    simp only [← isExport_iff_mem htree hroot] at hleast
    rw [← isReachable_iff_openToRoot htree hroot] at hclosed
    simp only [referencePath?, hvisible, hclosed, Bool.not_true, Bool.false_eq_true, if_false]
    cases hbest : Candidate.least? ((List.range c.modules.length).flatMap (exportsFrom c decl)) with
    | none =>
      rw [hbest] at hleast
      refine ⟨fun path => iff_of_false (Option.some_ne_none path).symm ?_, iff_of_true rfl hleast⟩
      rintro ⟨best, hfirst, -⟩
      exact hleast best hfirst.1
    | some best =>
      rw [hbest] at hleast
      refine ⟨fun path => ⟨?_, ?_⟩, iff_of_false (Option.some_ne_none _) fun hnothing =>
        hnothing best hleast.1⟩
      · intro hpath
        exact ⟨best, hleast, (Option.some.inj hpath).symm⟩
      · rintro ⟨other, hfirst, rfl⟩
        rw [Option.map_some, Candidate.IsFirst.unique hleast hfirst]

/-- Of several paths of one length the root takes the one that comes first in bytes, though another
    one is written before it. -/
theorem referencePath?_eq_first_private :
    ∃ c, load (.ofTexts [(⟨"lib.rs"⟩, "mod jobs;"), (⟨"jobs.rs"⟩,
          "mod inner; pub use inner::Nightly as Weekly; pub use inner::Nightly as Daily;"),
        (⟨"jobs/inner.rs"⟩, "pub struct Nightly;")])
        "app" [] ⟨"lib.rs"⟩ = .ok c ∧
      ∃ decl ∈ c.decls, decl.scope.visibleFromRoot = true ∧ ¬ c.OpenToRoot decl.module ∧
        (∃ best, Candidate.IsFirst (c.IsExport decl) best ∧ "app::jobs::Daily" = best.text) ∧
        ∀ visit : Visit c, visit.referencePath? decl = some "app::jobs::Daily" := by
  refine exists_loaded_of_any (fun c => ∃ decl ∈ c.decls, decl.scope.visibleFromRoot = true ∧
      isReachable c decl.module = false ∧ c.referencePath? decl = some "app::jobs::Daily")
    (by decide +kernel) fun c hload htest => ?_
  obtain ⟨decl, hdecl, hvisible, hclosed, hpath⟩ := of_decide_eq_true htest
  have hnot : ¬ c.OpenToRoot decl.module := by
    rw [← isReachable_iff_openToRoot (moduleTree_of_load hload) (exists_root_of_load hload), hclosed]
    exact Bool.false_ne_true
  obtain ⟨-, -, hfirst, hvisit⟩ := referencePath?_eq_first hload decl
  exact ⟨decl, hdecl, hvisible, hnot, ((hfirst hvisible hnot).1 _).1 hpath,
    fun visit => (hvisit visit).trans hpath⟩

end JobRoster.Crate
