import Mathlib.Data.List.Nodup
import JobRoster.Proofs.Job.Roster
import JobRoster.Proofs.Text.ByteOrder

/-!
# What a roster comes to

With a diagnostic among the results a roster fails with all of them in order. Else, if two jobs have
one id, it fails with the least such id and the two least declarations of it; and else it is all the
jobs in the strict order of their ids. That the first equal neighbours are the least clash holds
because jobs are sorted by their ids first: before a first clash all ids are distinct.
-/

namespace JobRoster

/-! ## Diagnostics in order -/

namespace Files

/-- One component before another, by its kind, and by the bytes of its name among names. -/
def Component.Before (a b : Component) : Prop :=
  a.rank < b.rank ∨ a.rank = b.rank ∧ Text.bytes a.label < Text.bytes b.label

theorem Component.compare_eq_lt_iff {a b : Component} : a.compare b = .lt ↔ a.Before b := by
  have hrank : compareOn rank a b = Ord.compare a.rank b.rank := rfl
  have hlabel : compareOn label a b = Ord.compare a.label b.label := rfl
  rw [compare_eq_lex, compareLex, Ordering.then_eq_lt, hrank, hlabel, compare_lt_iff_lt,
    compare_lt_iff_lt, compare_eq_iff_eq, ← Text.bytes_lt_bytes_iff, Before]

theorem FilePath.compareLists_eq_lt_iff {as bs : List Component} :
    compareLists as bs = .lt ↔ List.Lex Component.Before as bs := by
  induction as generalizing bs with
  | nil => cases bs <;> simp [compareLists]
  | cons a as ih =>
    cases bs with
    | nil => simp [compareLists]
    | cons b bs =>
      rw [compareLists, Ordering.then_eq_lt, Component.compare_eq_lt_iff, ih,
        Std.LawfulEqCmp.compare_eq_iff_eq, List.cons_lex_cons_iff]

end Files

/-- One diagnostic is not after another: by the components of the file, by line, and by the bytes of
    the declaration. -/
def Diagnostic.InOrder (a b : Diagnostic) : Prop :=
  List.Lex Files.Component.Before a.location.file.components b.location.file.components ∨
    a.location.file.components = b.location.file.components ∧
      (a.location.line < b.location.line ∨
        a.location.line = b.location.line ∧ Text.bytes a.declaration ≤ Text.bytes b.declaration)

theorem Text.bytes_le_bytes_iff {a b : String} : bytes a ≤ bytes b ↔ a ≤ b := by
  rw [← List.not_lt, bytes_lt_bytes_iff, not_lt]

theorem Diagnostic.isLE_compare_iff {a b : Diagnostic} : (a.compare b).isLE ↔ a.InOrder b := by
  have hfile : a.location.file.compare b.location.file = .lt ↔
      List.Lex Files.Component.Before a.location.file.components b.location.file.components :=
    Files.FilePath.compareLists_eq_lt_iff
  rw [Diagnostic.compare, Ordering.isLE_then_iff_or, Location.compare_eq_iff, Location.compare,
    Ordering.then_eq_lt, hfile, Files.FilePath.compare_eq_iff, compare_lt_iff_lt,
    Std.LawfulBCmp.isLE_iff_le, InOrder, Text.bytes_le_bytes_iff]
  tauto

/-! ## The first clash -/

/-- The least id that occurs twice among some jobs, and the two least declarations of its jobs. -/
structure LeastClash (jobs : List Job) (id first second : String) : Prop where
  declarations : ∃ others,
    ((jobs.filter (·.id = id)).map Job.identity).Perm (first :: second :: others) ∧
      (first :: second :: others).Pairwise fun x y => Text.bytes x ≤ Text.bytes y
  least : ∀ other, 2 ≤ (jobs.map Job.id).count other → Text.bytes id ≤ Text.bytes other

/-- The first of several neighbours of one id comes after ids that are all smaller. -/
theorem firstClash?_eq_some {jobs : List Job} (sorted : Job.Sorted jobs) {a b : Job}
    (h : firstClash? jobs = some (a, b)) :
    ∃ before rest, jobs = before ++ a :: b :: rest ∧ a.id = b.id ∧
      (before ++ [a]).Pairwise fun x y => x.id < y.id := by
  fun_induction firstClash? jobs with
  | case1 first second rest heq =>
    obtain ⟨rfl, rfl⟩ := Prod.mk.inj (Option.some.inj h)
    exact ⟨[], rest, rfl, heq, List.pairwise_singleton _ _⟩
  | case2 first second rest hne ih =>
    obtain ⟨hfirst, hrest⟩ := List.pairwise_cons.1 sorted
    obtain ⟨before, after, hsplit, heq, hlt⟩ := ih hrest h
    refine ⟨first :: before, after, by rw [hsplit]; rfl, heq, ?_⟩
    rw [List.cons_append, List.pairwise_cons]
    refine ⟨fun job hjob => ?_, hlt⟩
    -- the second is the least of those that follow, so the first is below all of them
    have hsecond : first.id < second.id :=
      (Job.isLE_compare_iff.1 (hfirst second List.mem_cons_self)).resolve_right fun h => hne h.1
    have hmem : job ∈ second :: rest := by
      rw [hsplit]
      rw [List.mem_append, List.mem_singleton] at hjob
      obtain hbefore | rfl := hjob
      · exact List.mem_append_left _ hbefore
      · exact List.mem_append_right _ List.mem_cons_self
    obtain rfl | hlater := List.mem_cons.1 hmem
    · exact hsecond
    · obtain hid | ⟨hid, -⟩ :=
        Job.isLE_compare_iff.1 ((List.pairwise_cons.1 hrest).1 job hlater)
      · exact lt_trans hsecond hid
      · exact hid ▸ hsecond
  | case3 => cases h

section Split

variable {before rest : List Job} {a b : Job} (sorted : Job.Sorted (before ++ a :: b :: rest))
  (hlt : (before ++ [a]).Pairwise fun x y => x.id < y.id)

include hlt in
theorem id_lt_of_mem_before {job : Job} (h : job ∈ before) : job.id < a.id :=
  (List.pairwise_append.1 hlt).2.2 job h a (List.mem_singleton_self a)

include sorted in
theorem id_le_of_mem_rest {job : Job} (h : job ∈ a :: b :: rest) : a.id ≤ job.id := by
  obtain rfl | hlater := List.mem_cons.1 h
  · exact le_rfl
  · have hsorted := (List.pairwise_append.1 sorted).2.1
    obtain hid | ⟨hid, -⟩ := Job.isLE_compare_iff.1 ((List.pairwise_cons.1 hsorted).1 job hlater)
    · exact le_of_lt hid
    · exact le_of_eq hid

include hlt in
/-- The jobs of the id that clashes start with the two that are found. -/
theorem filter_id_of_split (heq : a.id = b.id) :
    (before ++ a :: b :: rest).filter (·.id = a.id) =
      a :: b :: rest.filter (·.id = a.id) := by
  have hbefore : before.filter (·.id = a.id) = [] := by
    rw [List.filter_eq_nil_iff]
    intro job hjob
    simpa using ne_of_lt (id_lt_of_mem_before hlt hjob)
  rw [List.filter_append, hbefore, List.nil_append, List.filter_cons_of_pos (by simp),
    List.filter_cons_of_pos (by simp [heq])]

include sorted hlt in
/-- No smaller id occurs twice. -/
theorem id_le_of_repeated {id : String}
    (h : 2 ≤ ((before ++ a :: b :: rest).map Job.id).count id) : a.id ≤ id := by
  by_contra hsmaller
  have hrest : ((a :: b :: rest).map Job.id).count id = 0 := by
    rw [List.count_eq_zero, List.mem_map]
    rintro ⟨job, hjob, rfl⟩
    exact hsmaller (id_le_of_mem_rest sorted hjob)
  have hbefore : (before.map Job.id).Nodup := by
    rw [List.Nodup, List.pairwise_map]
    exact (List.pairwise_append.1 hlt).1.imp fun h => ne_of_lt h
  have hone := List.nodup_iff_count_le_one.1 hbefore id
  rw [List.map_append, List.count_append, hrest] at h
  omega

end Split

/-! ## The roster of some results -/

/-- Jobs of one id in order have their identities in order. -/
theorem Job.Sorted.identities {jobs : List Job} (sorted : Job.Sorted jobs) (id : String) :
    ((jobs.filter (·.id = id)).map Job.identity).Pairwise fun x y =>
      Text.bytes x ≤ Text.bytes y := by
  rw [List.pairwise_map]
  refine (sorted.sublist List.filter_sublist).imp_of_mem fun {a b} ha hb hle => ?_
  have hida : a.id = id := by simpa using (List.mem_filter.1 ha).2
  have hidb : b.id = id := by simpa using (List.mem_filter.1 hb).2
  rw [Text.bytes_le_bytes_iff]
  obtain hid | ⟨-, hidentity⟩ := Job.isLE_compare_iff.1 hle
  · rw [hida, hidb] at hid
    exact absurd hid (lt_irrefl id)
  · exact hidentity

/-- Diagnostics of one place stay in the order in which they were found. -/
theorem sublist_sortedDiagnostics {results : List Extracted} {tied : List Diagnostic}
    (h : tied.Sublist (Extracted.diagnostics results))
    (htied : tied.Pairwise Diagnostic.SamePlace) :
    tied.Sublist (sortedDiagnostics results) := by
  refine List.sublist_mergeSort (fun a b c => Std.TransCmp.isLE_trans) (fun a b => ?_) ?_ h
  · have hswap : b.compare a = (a.compare b).swap := Std.OrientedCmp.eq_swap
    rw [hswap]
    cases a.compare b <;> rfl
  · exact htied.imp fun hplace => by rw [Diagnostic.compare_eq_iff.2 hplace]; rfl

/-- Without diagnostics, an id that occurs twice makes the roster fail with the least clash. -/
theorem roster_of_repeated {results : List Extracted} (hsound : Extracted.diagnostics results = [])
    (hrepeated : ¬ ((Extracted.jobs results).map Job.id).Nodup) :
    ∃ id first second, roster results = .error (.duplicateJobId id first second) ∧
      LeastClash (Extracted.jobs results) id first second := by
  have sorted := sorted_sortedJobs results
  have hperm := sortedJobs_perm results
  cases hclash : firstClash? (sortedJobs results) with
  | none =>
    rw [← pairwise_id_lt_sortedJobs_iff, ← firstClash?_eq_none_iff sorted] at hrepeated
    exact absurd hclash hrepeated
  | some clash =>
    obtain ⟨a, b⟩ := clash
    obtain ⟨before, rest, hsplit, heq, hlt⟩ := firstClash?_eq_some sorted hclash
    have hfilter : (sortedJobs results).filter (·.id = a.id) =
        a :: b :: rest.filter (·.id = a.id) := by
      rw [hsplit]
      exact filter_id_of_split hlt heq
    refine ⟨a.id, a.identity, b.identity, ?_,
      ⟨(rest.filter (·.id = a.id)).map Job.identity, ?_, ?_⟩, fun other hother => ?_⟩
    · rw [roster_of_sound hsound, hclash]
      rfl
    · rw [← List.map_cons, ← List.map_cons, ← hfilter]
      exact ((hperm.filter _).map Job.identity).symm
    · rw [← List.map_cons, ← List.map_cons, ← hfilter]
      exact sorted.identities a.id
    · rw [← (hperm.map Job.id).count_eq] at hother
      rw [Text.bytes_le_bytes_iff]
      rw [hsplit] at sorted hother
      exact id_le_of_repeated sorted hlt hother

/-- What a roster comes to depends on the results it is made of, each as often as it occurs, and on
    their order only for diagnostics of one place. -/
theorem roster_of_results (results : List Extracted) :
    -- with a diagnostic, all of them in order
    (Extracted.diagnostics results ≠ [] →
      ∃ found, roster results = .error (.diagnostics found) ∧
        found.Perm (Extracted.diagnostics results) ∧ found.Pairwise Diagnostic.InOrder ∧
        ∀ tied : List Diagnostic, tied.Sublist (Extracted.diagnostics results) →
          tied.Pairwise Diagnostic.SamePlace → tied.Sublist found) ∧
    -- else the least clash, if there is one
    (Extracted.diagnostics results = [] → ¬ ((Extracted.jobs results).map Job.id).Nodup →
      ∃ id first second, roster results = .error (.duplicateJobId id first second) ∧
        LeastClash (Extracted.jobs results) id first second) ∧
    -- and else all jobs, in strict order
    (Extracted.diagnostics results = [] → ((Extracted.jobs results).map Job.id).Nodup →
      ∃ ordered, roster results = .ok ordered ∧ ordered.Perm (Extracted.jobs results) ∧
        ordered.Pairwise fun a b => Text.bytes a.id < Text.bytes b.id) ∧
    -- in another order the results come to the same
    ∀ results', results.Perm results' → EndAlike Eq (roster results) (roster results') := by
  refine ⟨fun hfaulty => ?_, roster_of_repeated, fun hsound hnodup => ?_, fun results' hperm => ?_⟩
  · refine ⟨_, roster_of_faulty hfaulty, sortedDiagnostics_perm results, ?_,
      fun tied hsublist => sublist_sortedDiagnostics hsublist⟩
    exact (pairwise_sort (Extracted.diagnostics results)).imp Diagnostic.isLE_compare_iff.1
  · refine ⟨_, roster_eq_ok_iff.2 ⟨hsound, hnodup, rfl⟩, sortedJobs_perm results, ?_⟩
    exact ((pairwise_id_lt_sortedJobs_iff results).2 hnodup).imp Text.bytes_lt_bytes_iff.2
  · exact roster_congr (hperm.filterMap _) (hperm.filterMap _)

end JobRoster
