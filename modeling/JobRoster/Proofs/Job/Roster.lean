import Mathlib.Data.List.Pairwise
import JobRoster.Proofs.Job.Order

/-!
# What decides a roster

A roster depends on the results it is made of, not on their order. With a diagnostic among them it
is all diagnostics, sorted; without one it is all jobs, sorted, if their ids are distinct, and else
the first clash of ids among the sorted jobs.
-/

namespace JobRoster

/-! ## Sorting by a comparison -/

section Sorting

variable {α : Type} {cmp : α → α → Ordering} [Std.TransCmp cmp]

omit [Std.TransCmp cmp] in
theorem sort_perm (xs : List α) : (xs.mergeSort fun a b => (cmp a b).isLE).Perm xs :=
  List.mergeSort_perm xs _

theorem pairwise_sort (xs : List α) :
    (xs.mergeSort fun a b => (cmp a b).isLE).Pairwise fun a b => (cmp a b).isLE := by
  apply List.pairwise_mergeSort
  · intro a b c hab hbc
    exact Std.TransCmp.isLE_trans hab hbc
  · intro a b
    have hswap : cmp b a = (cmp a b).swap := Std.OrientedCmp.eq_swap
    rw [hswap]
    cases cmp a b <;> rfl

/-- Sorting forgets the order of what is sorted, as far as no two of it compare as equal. -/
theorem sort_eq_of_perm {xs ys : List α} (h : xs.Perm ys)
    (distinct : xs.Pairwise fun a b => cmp a b ≠ .eq) :
    (xs.mergeSort fun a b => (cmp a b).isLE) = ys.mergeSort fun a b => (cmp a b).isLE := by
  have : Std.Symm fun a b => cmp a b ≠ .eq :=
    ⟨fun a b hne heq => hne (Std.OrientedCmp.eq_symm heq)⟩
  -- both are sorted lists of the same things: only what compares as equal could trade places
  refine List.Perm.eq_of_pairwise ?_ (pairwise_sort xs) (pairwise_sort ys)
    (((sort_perm xs).trans h).trans (sort_perm ys).symm)
  intro a b ha hb hab hba
  have ha : a ∈ xs := List.mem_mergeSort.mp ha
  have hb : b ∈ xs := h.mem_iff.mpr (List.mem_mergeSort.mp hb)
  by_contra hne
  exact distinct.forall ha hb hne (Std.OrientedCmp.isLE_antisymm hab hba)

end Sorting

/-! ## Clashes -/

/-- What jobs are sorted by. -/
def Job.key (job : Job) : String × String :=
  (job.id, job.identity)

/-- Jobs in the order of their keys. -/
def Job.Sorted (jobs : List Job) : Prop :=
  jobs.Pairwise fun a b => (a.compare b).isLE

/-- What is reported of a clash: the id, and the declarations of both jobs. -/
def clashReport (clash : Job × Job) : Failure :=
  .duplicateJobId clash.1.id clash.1.identity clash.2.identity

/-- Sorted jobs are told apart by their ids exactly when no two neighbours have one id. -/
theorem firstClash?_eq_none_iff {jobs : List Job} (sorted : Job.Sorted jobs) :
    firstClash? jobs = none ↔ jobs.Pairwise fun a b => a.id < b.id := by
  fun_induction firstClash? jobs with
  | case1 a b jobs heq =>
    refine iff_of_false (by simp) fun hlt => ?_
    exact absurd heq (ne_of_lt ((List.pairwise_cons.mp hlt).1 b (by simp)))
  | case2 a b jobs hne ih =>
    obtain ⟨hfirst, hrest⟩ := List.pairwise_cons.mp sorted
    rw [ih hrest, List.pairwise_cons (a := a), iff_and_self]
    intro hlt c hc
    -- `b` is the least of the others, so it is enough that `a` is before `b`
    rcases Job.isLE_compare_iff.mp (hfirst b (by simp)) with hab | hab
    · rcases List.mem_cons.mp hc with rfl | hc
      · exact hab
      · exact lt_trans hab ((List.pairwise_cons.mp hlt).1 c hc)
    · exact absurd hab.1 hne
  | case3 jobs hshort =>
    match jobs with
    | [] => simp
    | [a] => simp
    | a :: b :: rest => exact absurd rfl (hshort a b rest)

/-- A clash is told by the keys of the jobs. -/
theorem map_firstClash?_congr {xs ys : List Job} (h : xs.map Job.key = ys.map Job.key) :
    (firstClash? xs).map clashReport = (firstClash? ys).map clashReport := by
  induction xs generalizing ys with
  | nil => rw [List.map_eq_nil_iff.mp h.symm]
  | cons a xs ih =>
    -- the lists are equally long, so there is a clash to look for in both of them or in neither
    obtain ⟨a', ys, rfl⟩ : ∃ a' ys', ys = a' :: ys' := List.exists_cons_of_ne_nil (by
      rintro rfl
      simp at h)
    obtain ⟨ha, hrest⟩ := List.cons.inj h
    cases xs with
    | nil => rw [List.map_eq_nil_iff.mp hrest.symm]; rfl
    | cons b xs =>
      obtain ⟨b', ys, rfl⟩ : ∃ b' ys', ys = b' :: ys' := List.exists_cons_of_ne_nil (by
        rintro rfl
        simp at hrest)
      obtain ⟨hb, -⟩ := List.cons.inj hrest
      have hae := Prod.mk.inj ha
      have hbe := Prod.mk.inj hb
      by_cases hid : a.id = b.id
      · have hid' : a'.id = b'.id := by rw [← hae.1, hid, hbe.1]
        simp [firstClash?, hid, hid', clashReport, ← hae.2, ← hbe]
      · have hid' : a'.id ≠ b'.id := by rwa [← hae.1, ← hbe.1]
        rw [firstClash?, if_neg hid, firstClash?, if_neg hid']
        exact ih hrest

/-! ## The roster of some results -/

namespace Extracted

/-- The jobs among some results. -/
def jobs (results : List Extracted) : List Job :=
  results.filterMap job?

/-- The diagnostics among some results. -/
def diagnostics (results : List Extracted) : List Diagnostic :=
  results.filterMap diagnostic?

@[simp] theorem jobs_nil : jobs [] = [] := rfl

@[simp] theorem jobs_error_cons (diagnostic : Diagnostic) (results : List Extracted) :
    jobs (.error diagnostic :: results) = jobs results := rfl

@[simp] theorem jobs_none_cons (results : List Extracted) :
    jobs (.ok none :: results) = jobs results := rfl

@[simp] theorem jobs_some_cons (job : Job) (results : List Extracted) :
    jobs (.ok (some job) :: results) = job :: jobs results := rfl

@[simp] theorem diagnostics_nil : diagnostics [] = [] := rfl

@[simp] theorem diagnostics_error_cons (diagnostic : Diagnostic) (results : List Extracted) :
    diagnostics (.error diagnostic :: results) = diagnostic :: diagnostics results := rfl

@[simp] theorem diagnostics_ok_cons (job : Option Job) (results : List Extracted) :
    diagnostics (.ok job :: results) = diagnostics results := rfl

@[simp] theorem jobs_append (results more : List Extracted) :
    jobs (results ++ more) = jobs results ++ jobs more :=
  List.filterMap_append

@[simp] theorem diagnostics_append (results more : List Extracted) :
    diagnostics (results ++ more) = diagnostics results ++ diagnostics more :=
  List.filterMap_append

/-- Results of declarations that are passed over hold neither jobs nor diagnostics. -/
theorem eq_nil_of_none (results : List Extracted) (h : ∀ result ∈ results, result = .ok none) :
    jobs results = [] ∧ diagnostics results = [] := by
  induction results with
  | nil => exact ⟨rfl, rfl⟩
  | cons result results ih =>
    obtain rfl := h result List.mem_cons_self
    exact ih fun result hresult => h result (List.mem_cons_of_mem _ hresult)

theorem length_jobs_add_diagnostics_le (results : List Extracted) :
    (jobs results).length + (diagnostics results).length ≤ results.length := by
  induction results with
  | nil => simp
  | cons result results ih =>
    rcases result with diagnostic | _ | job <;> simp only [jobs_error_cons, jobs_none_cons,
      jobs_some_cons, diagnostics_error_cons, diagnostics_ok_cons, List.length_cons] <;> omega

end Extracted

/-- All jobs of some results in order. -/
def sortedJobs (results : List Extracted) : List Job :=
  (Extracted.jobs results).mergeSort fun a b => (a.compare b).isLE

/-- All diagnostics of some results in order. -/
def sortedDiagnostics (results : List Extracted) : List Diagnostic :=
  (Extracted.diagnostics results).mergeSort fun a b => (a.compare b).isLE

theorem sortedJobs_perm (results : List Extracted) :
    (sortedJobs results).Perm (Extracted.jobs results) :=
  sort_perm _

theorem sortedDiagnostics_perm (results : List Extracted) :
    (sortedDiagnostics results).Perm (Extracted.diagnostics results) :=
  sort_perm _

theorem sorted_sortedJobs (results : List Extracted) : Job.Sorted (sortedJobs results) :=
  pairwise_sort _

/-- Equal ids are the only thing that keeps sorted jobs from being in strict order. -/
theorem pairwise_id_lt_sortedJobs_iff (results : List Extracted) :
    ((sortedJobs results).Pairwise fun a b => a.id < b.id) ↔
      ((Extracted.jobs results).map Job.id).Nodup := by
  rw [List.Nodup, List.pairwise_map,
    ← (sortedJobs_perm results).pairwise_iff (fun {a b} h => Ne.symm h)]
  constructor
  · exact List.Pairwise.imp fun h => ne_of_lt h
  · intro hne
    -- in order of keys, and no two ids are equal: so identities never have to decide
    refine ((sorted_sortedJobs results).and hne).imp ?_
    rintro a b ⟨hle, hne⟩
    exact (Job.isLE_compare_iff.mp hle).resolve_right fun h => hne h.1

theorem roster_of_faulty {results : List Extracted} (h : Extracted.diagnostics results ≠ []) :
    roster results = .error (.diagnostics (sortedDiagnostics results)) := by
  unfold roster
  split
  case h_1 hnil => exact absurd hnil h
  case h_2 => rfl

/-- Without a diagnostic, a clash of the sorted jobs decides. -/
theorem roster_of_sound {results : List Extracted} (h : Extracted.diagnostics results = []) :
    roster results =
      match (firstClash? (sortedJobs results)).map clashReport with
      | some failure => .error failure
      | none => .ok (sortedJobs results) := by
  unfold roster
  split
  case h_1 => simp only [sortedJobs, Extracted.jobs]; cases firstClash? _ <;> rfl
  case h_2 hne => exact absurd h hne

/-- A roster is made of jobs and diagnostics only. -/
theorem roster_eq_of_found {results results' : List Extracted}
    (hjobs : Extracted.jobs results = Extracted.jobs results')
    (hdiagnostics : Extracted.diagnostics results = Extracted.diagnostics results') :
    roster results = roster results' := by
  by_cases h : Extracted.diagnostics results = []
  · rw [roster_of_sound h, roster_of_sound (hdiagnostics ▸ h), sortedJobs, hjobs, ← sortedJobs]
  · rw [roster_of_faulty h, roster_of_faulty (hdiagnostics ▸ h), sortedDiagnostics, hdiagnostics,
      ← sortedDiagnostics]

/-- There is a roster exactly when there are no diagnostics and no two jobs of one id. -/
theorem roster_eq_ok_iff {results : List Extracted} {jobs : List Job} :
    roster results = .ok jobs ↔
      Extracted.diagnostics results = [] ∧ ((Extracted.jobs results).map Job.id).Nodup ∧
        jobs = sortedJobs results := by
  by_cases h : Extracted.diagnostics results = []
  · rw [roster_of_sound h, ← pairwise_id_lt_sortedJobs_iff,
      ← firstClash?_eq_none_iff (sorted_sortedJobs results)]
    cases firstClash? (sortedJobs results) with
    | none => simp [h, eq_comm]
    | some clash => simp
  · simp [roster_of_faulty h, h]

/-- Results without jobs and diagnostics make an empty roster. -/
theorem roster_of_barren {results : List Extracted} (hjobs : Extracted.jobs results = [])
    (hdiagnostics : Extracted.diagnostics results = []) : roster results = .ok [] := by
  rw [roster_eq_ok_iff, hjobs]
  refine ⟨hdiagnostics, List.nodup_nil, ?_⟩
  simp [sortedJobs, hjobs]

/-- A roster fails for what is wrong with the declarations only. -/
theorem roster_ne_cancelled (results : List Extracted) : roster results ≠ .error .cancelled := by
  by_cases h : Extracted.diagnostics results = []
  · rw [roster_of_sound h]
    cases firstClash? (sortedJobs results) <;> simp [clashReport]
  · simp [roster_of_faulty h]

/-! ## Results in another order -/

/-- Two failures report the same. Diagnostics of one place may come in either order. -/
def Failure.Agrees : Failure → Failure → Prop
  | .diagnostics found, .diagnostics found' =>
    found.Perm found' ∧ ((found.Pairwise fun a b => ¬ a.SamePlace b) → found = found')
  | failure, failure' => failure = failure'

theorem Failure.Agrees.refl (failure : Failure) : failure.Agrees failure := by
  cases failure with
  | diagnostics found => exact ⟨List.Perm.refl found, fun _ => rfl⟩
  | _ => exact rfl

/-- Two runs end alike: both in results that `R` relates, or both in failures that agree. -/
def EndAlike {α β : Type} (R : α → β → Prop) : Except Failure α → Except Failure β → Prop
  | .ok a, .ok b => R a b
  | .error failure, .error failure' => failure.Agrees failure'
  | _, _ => False

/-- The order of keys leaves no choice where two of them stand. -/
theorem map_key_sortedJobs_congr {results results' : List Extracted}
    (h : (Extracted.jobs results).Perm (Extracted.jobs results')) :
    (sortedJobs results).map Job.key = (sortedJobs results').map Job.key := by
  have hsorted : ∀ results, ((sortedJobs results).map Job.key).Pairwise fun k l =>
      k.1 < l.1 ∨ k.1 = l.1 ∧ k.2 ≤ l.2 := by
    intro results
    rw [List.pairwise_map]
    exact (sorted_sortedJobs results).imp Job.isLE_compare_iff.mp
  have hperm : (sortedJobs results).Perm (sortedJobs results') :=
    ((sortedJobs_perm results).trans h).trans (sortedJobs_perm results').symm
  -- jobs with one key may come in either order, but their keys are the same either way
  refine List.Perm.eq_of_pairwise ?_ (hsorted results) (hsorted results') (hperm.map Job.key)
  rintro ⟨id, identity⟩ ⟨id', identity'⟩ - - hle hge
  rcases hle with hlt | ⟨rfl, hle⟩
  · rcases hge with hgt | ⟨heq, -⟩
    · exact absurd hgt (lt_asymm hlt)
    · exact absurd heq.symm (ne_of_lt hlt)
  · rcases hge with hgt | ⟨-, hge⟩
    · exact absurd hgt (lt_irrefl id)
    · exact congrArg _ (le_antisymm hle hge)

theorem sortedJobs_congr {results results' : List Extracted}
    (h : (Extracted.jobs results).Perm (Extracted.jobs results'))
    (distinct : (sortedJobs results).Pairwise fun a b => a.id < b.id) :
    sortedJobs results = sortedJobs results' := by
  apply sort_eq_of_perm h
  have hnodup := (pairwise_id_lt_sortedJobs_iff results).mp distinct
  exact (List.pairwise_map.mp hnodup).imp fun hne heq => hne (Job.id_eq_of_compare_eq heq)

theorem sortedDiagnostics_congr {results results' : List Extracted}
    (h : (Extracted.diagnostics results).Perm (Extracted.diagnostics results'))
    (distinct : (sortedDiagnostics results).Pairwise fun a b => ¬ a.SamePlace b) :
    sortedDiagnostics results = sortedDiagnostics results' := by
  apply sort_eq_of_perm h
  have hplaces : (sortedDiagnostics results).Pairwise fun a b => a.compare b ≠ .eq :=
    distinct.imp fun hne heq => hne (Diagnostic.compare_eq_iff.mp heq)
  exact ((sortedDiagnostics_perm results).pairwise_iff
    fun hne heq => hne (Std.OrientedCmp.eq_symm heq)).mp hplaces

/-- The roster depends on which jobs and which diagnostics there are, not on their order. -/
theorem roster_congr {results results' : List Extracted}
    (hjobs : (Extracted.jobs results).Perm (Extracted.jobs results'))
    (hdiagnostics : (Extracted.diagnostics results).Perm (Extracted.diagnostics results')) :
    EndAlike Eq (roster results) (roster results') := by
  by_cases hsound : Extracted.diagnostics results = []
  · have hsound' : Extracted.diagnostics results' = [] := by
      rw [hsound] at hdiagnostics
      exact hdiagnostics.nil_eq.symm
    -- with a clash the jobs themselves may be in another order, but what is reported is not
    have hclash := map_firstClash?_congr (map_key_sortedJobs_congr hjobs)
    rw [roster_of_sound hsound, roster_of_sound hsound', ← hclash]
    cases hfirst : firstClash? (sortedJobs results) with
    | none =>
      exact sortedJobs_congr hjobs
        ((firstClash?_eq_none_iff (sorted_sortedJobs results)).mp hfirst)
    | some clash => exact rfl
  · have hfaulty' : Extracted.diagnostics results' ≠ [] := by
      intro hnil
      rw [hnil] at hdiagnostics
      exact hsound hdiagnostics.eq_nil
    rw [roster_of_faulty hsound, roster_of_faulty hfaulty']
    refine ⟨?_, sortedDiagnostics_congr hdiagnostics⟩
    exact ((sortedDiagnostics_perm results).trans hdiagnostics).trans
      (sortedDiagnostics_perm results').symm

end JobRoster
