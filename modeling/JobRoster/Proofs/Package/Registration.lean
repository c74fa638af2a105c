import Mathlib.Data.List.Forall2
import JobRoster.Package.Basic
import JobRoster.Proofs.Crate.Interning
import JobRoster.Proofs.Pass.Uncancelled
import JobRoster.Proofs.Text.ByteOrder

/-!
# Every marked declaration is registered once

Between a crate and its unit a declaration passes the test of short names, the lookup of symbols,
extraction and the roster. The declarations that are marked are the ones that get through: no other
declaration leaves a trace, and none of them is lost or doubled on the way.
-/

namespace JobRoster

/-! ## Results of declarations that are not passed over -/

namespace Extracted

variable {α : Type} {extract : α → Extracted}

/-- The list of faulty ones among some declarations. -/
def faulty (extract : α → Extracted) (xs : List α) : List α :=
  xs.filter fun x => (extract x).diagnostic?.isSome

theorem forall₂_jobs {xs : List α} (hmeant : ∀ x ∈ xs, extract x ≠ .ok none)
    (hsound : diagnostics (xs.map extract) = []) :
    List.Forall₂ (fun x job => extract x = .ok (some job)) xs (jobs (xs.map extract)) := by
  -- each declaration comes to a job or a diagnostic, and there are no diagnostics
  induction xs with
  | nil => exact .nil
  | cons x xs ih =>
    have hx : extract x ≠ .ok none := hmeant x List.mem_cons_self
    have hrest : ∀ x ∈ xs, extract x ≠ .ok none := fun x hx => hmeant x (List.mem_cons_of_mem _ hx)
    rw [List.map_cons] at hsound ⊢
    rcases hextract : extract x with diagnostic | _ | job
    · simp [hextract] at hsound
    · exact absurd hextract hx
    · rw [hextract, diagnostics_ok_cons] at hsound
      rw [jobs_some_cons]
      exact .cons hextract (ih hrest hsound)

theorem jobs_of_forall₂ {xs : List α} {found : List Job}
    (h : List.Forall₂ (fun x job => extract x = .ok (some job)) xs found) :
    jobs (xs.map extract) = found ∧ diagnostics (xs.map extract) = [] := by
  induction h with
  | nil => exact ⟨rfl, rfl⟩
  | cons hextract _ ih => simp [hextract, ih]

theorem forall₂_diagnostics (xs : List α) :
    List.Forall₂ (fun x diagnostic => extract x = .error diagnostic) (faulty extract xs)
      (diagnostics (xs.map extract)) := by
  induction xs with
  | nil => exact .nil
  | cons x xs ih =>
    rw [List.map_cons, faulty, List.filter_cons]
    cases hextract : extract x with
    | error diagnostic =>
      rw [diagnostics_error_cons]
      exact .cons hextract ih
    | ok job => exact ih

/-- Declarations that are passed over leave neither jobs nor diagnostics. -/
theorem map_filter_meant {p : α → Bool} {xs : List α}
    (h : ∀ x ∈ xs, p x = false → extract x = .ok none) :
    jobs ((xs.filter p).map extract) = jobs (xs.map extract) ∧
      diagnostics ((xs.filter p).map extract) = diagnostics (xs.map extract) := by
  induction xs with
  | nil => exact ⟨rfl, rfl⟩
  | cons x xs ih =>
    obtain ⟨hjobs, hdiagnostics⟩ := ih fun x hx => h x (List.mem_cons_of_mem _ hx)
    cases hp : p x with
    | false =>
      have hnone : extract x = .ok none := h x List.mem_cons_self hp
      simp [hp, hnone, hjobs, hdiagnostics]
    | true =>
      rw [List.filter_cons_of_pos hp, List.map_cons, List.map_cons]
      rcases extract x with diagnostic | _ | job <;> simp [hjobs, hdiagnostics]

theorem mem_diagnostics_of_error {xs : List α} {x : α} {diagnostic : Diagnostic} (hx : x ∈ xs)
    (h : extract x = .error diagnostic) : diagnostic ∈ diagnostics (xs.map extract) := by
  rw [diagnostics, List.mem_filterMap]
  exact ⟨extract x, List.mem_map_of_mem hx, by rw [h]; rfl⟩

end Extracted

/-! ## Marked declarations -/

namespace Crate

/-- A declaration that generation is meant for: a type without parameters, with an attribute of the
    marker's short name and one that resolves to the marker. -/
structure IsMarked (c : Crate) (settings : Settings) (decl : Decl) : Prop where
  concrete : decl.kind.isConcrete = true
  plain : decl.generics = 0
  named : ∃ attr ∈ decl.attributes, attr.shortName = settings.markerShortName
  resolves : ∃ attr ∈ decl.attributes, c.ResolvesToMarker settings.marker decl.module attr

instance (c : Crate) (marker : String) (module : Nat) (attr : Attribute) :
    Decidable (c.ResolvesToMarker marker module attr) :=
  decidable_of_iff
    (c.markerPath? marker ≠ none ∧ resolvePath c module attr.path = c.markerPath? marker) <| by
    unfold ResolvesToMarker
    cases c.markerPath? marker <;> simp

instance (c : Crate) (settings : Settings) (decl : Decl) : Decidable (c.IsMarked settings decl) :=
  decidable_of_iff
    (decl.kind.isConcrete = true ∧ decl.generics = 0 ∧
      (∃ attr ∈ decl.attributes, attr.shortName = settings.markerShortName) ∧
      ∃ attr ∈ decl.attributes, c.ResolvesToMarker settings.marker decl.module attr)
    ⟨fun ⟨hconcrete, hplain, hnamed, hresolves⟩ => ⟨hconcrete, hplain, hnamed, hresolves⟩,
      fun ⟨hconcrete, hplain, hnamed, hresolves⟩ => ⟨hconcrete, hplain, hnamed, hresolves⟩⟩

/-- The declarations that generation is meant for, in their order. -/
def marked (c : Crate) (settings : Settings) : List Decl :=
  c.decls.filter fun decl => c.IsMarked settings decl

/-- What a declaration of the crate is extracted to. -/
def extraction (c : Crate) (settings : Settings) (decl : Decl) : Extracted :=
  extract c.host (c.host.symbolNamed? settings.marker) (c.resolved decl)

theorem isCandidate_resolved_iff {c : Crate} {shortName : String} {decl : Decl} :
    isCandidate c.host shortName (c.resolved decl) = true ↔
      decl.generics = 0 ∧ ∃ attr ∈ decl.attributes, attr.shortName = shortName := by
  have hname : ∀ attr, c.host.shortName (c.attributeBy c.symbolTable decl.module attr) =
      attr.shortName := fun attr => rfl
  simp only [isCandidate, Bool.and_eq_true, decide_eq_true_eq, List.any_eq_true]
  rw [host_generics_resolved, host_attributes_resolved]
  simp only [List.mem_map, exists_exists_and_eq_and, hname]

/-- Extraction passes over a declaration exactly when it is no type that can be registered or
    nothing on it resolves to the marker. -/
theorem extraction_ne_none_iff {c : Crate} {settings : Settings} {decl : Decl}
    (hdecl : decl ∈ c.decls) :
    c.extraction settings decl ≠ .ok none ↔
      decl.kind.isConcrete = true ∧ decl.generics = 0 ∧
        ∃ attr ∈ decl.attributes, c.ResolvesToMarker settings.marker decl.module attr := by
  rw [extraction, Ne, extract_eq_none_iff, ← Ne, marking_ne_unmarked_iff, host_kind_resolved,
    host_generics_resolved, host_attributes_resolved]
  refine and_congr_right fun _ => and_congr_right fun _ => ?_
  -- the host compares symbols, and symbols stand for paths
  constructor
  · rintro ⟨resolved, hresolved, symbol, hmarker, hdenotes⟩
    obtain ⟨attr, hattr, rfl⟩ := List.mem_map.mp hresolved
    exact ⟨attr, hattr, (symbol_attributeBy_eq_marker_iff hdecl hattr settings.marker).mp
      ⟨symbol, hmarker, host_denotes_iff.mp hdenotes⟩⟩
  · rintro ⟨attr, hattr, hresolves⟩
    obtain ⟨symbol, hmarker, hsymbol⟩ :=
      (symbol_attributeBy_eq_marker_iff hdecl hattr settings.marker).mpr hresolves
    exact ⟨_, List.mem_map_of_mem hattr, symbol, hmarker, host_denotes_iff.mpr hsymbol⟩

theorem isMarked_iff {c : Crate} {settings : Settings} {decl : Decl} (hdecl : decl ∈ c.decls) :
    c.IsMarked settings decl ↔
      isCandidate c.host settings.markerShortName (c.resolved decl) = true ∧
        c.extraction settings decl ≠ .ok none := by
  rw [isCandidate_resolved_iff, extraction_ne_none_iff hdecl]
  constructor
  · rintro ⟨hconcrete, hplain, hnamed, hresolves⟩
    exact ⟨⟨hplain, hnamed⟩, hconcrete, hplain, hresolves⟩
  · rintro ⟨⟨hplain, hnamed⟩, hconcrete, -, hresolves⟩
    exact ⟨hconcrete, hplain, hnamed, hresolves⟩

theorem resultsOf_host (c : Crate) (settings : Settings) :
    resultsOf settings c.host (c.host.symbolNamed? settings.marker) =
      (c.decls.filter fun decl =>
        isCandidate c.host settings.markerShortName (c.resolved decl)).map
          (c.extraction settings) := by
  have hextraction : extract c.host (c.host.symbolNamed? settings.marker) ∘ c.resolved =
      c.extraction settings := by
    funext decl
    rw [Function.comp_apply, extraction]
  rw [resultsOf, candidates, host_decls, List.filter_map, List.map_map, hextraction,
    Function.comp_def]

/-- The test of short names lets every marked declaration through. -/
theorem marked_eq_filter (c : Crate) (settings : Settings) :
    c.marked settings =
      (c.decls.filter fun decl =>
        isCandidate c.host settings.markerShortName (c.resolved decl)).filter fun decl =>
          c.IsMarked settings decl := by
  rw [marked, List.filter_filter]
  refine List.filter_congr fun decl hdecl => ?_
  by_cases h : c.IsMarked settings decl
  · rw [((isMarked_iff hdecl).mp h).1, Bool.and_true]
  · rw [decide_eq_false h, Bool.false_and]

/-- The jobs and diagnostics of a crate are those of its marked declarations. -/
theorem found_host (c : Crate) (settings : Settings) :
    Extracted.jobs (resultsOf settings c.host (c.host.symbolNamed? settings.marker)) =
        Extracted.jobs ((c.marked settings).map (c.extraction settings)) ∧
      Extracted.diagnostics (resultsOf settings c.host (c.host.symbolNamed? settings.marker)) =
        Extracted.diagnostics ((c.marked settings).map (c.extraction settings)) := by
  -- a candidate that is not marked has an attribute of the right name that is not the marker
  have hpassed : ∀ decl ∈ c.decls.filter fun decl =>
      isCandidate c.host settings.markerShortName (c.resolved decl),
      decide (c.IsMarked settings decl) = false → c.extraction settings decl = .ok none := by
    intro decl hfound hunmarked
    obtain ⟨hdecl, hcandidate⟩ := List.mem_filter.mp hfound
    by_contra hmeant
    exact of_decide_eq_false hunmarked ((isMarked_iff hdecl).mpr ⟨hcandidate, hmeant⟩)
  obtain ⟨hjobs, hdiagnostics⟩ := Extracted.map_filter_meant hpassed
  rw [resultsOf_host, marked_eq_filter]
  exact ⟨hjobs.symm, hdiagnostics.symm⟩

/-- No marked declaration is passed over. -/
theorem extraction_ne_none_of_mem_marked {c : Crate} {settings : Settings} {decl : Decl}
    (h : decl ∈ c.marked settings) : c.extraction settings decl ≠ .ok none := by
  obtain ⟨hdecl, hmarked⟩ := List.mem_filter.mp h
  exact ((isMarked_iff hdecl).mp (of_decide_eq_true hmarked)).2

end Crate

/-! ## Packages -/

namespace Package

/-- The declarations of a package that generation is meant for. -/
def marked (package : Package) (overrides : Overrides) : List Crate.Decl :=
  package.crate.marked (package.settings overrides)

/-- What a declaration of a package is extracted to. -/
def extraction (package : Package) (overrides : Overrides) (decl : Crate.Decl) : Extracted :=
  package.crate.extraction (package.settings overrides) decl

/-- Some jobs are those of the marked declarations, one of each. -/
def JobsOfMarked (package : Package) (overrides : Overrides) (found : List Job) : Prop :=
  List.Forall₂ (fun decl job => package.extraction overrides decl = .ok (some job))
    (package.marked overrides) found

/-- Some diagnostics are those of the faulty ones among the marked declarations, one of each. -/
def DiagnosticsOfMarked (package : Package) (overrides : Overrides)
    (found : List Diagnostic) : Prop :=
  List.Forall₂ (fun decl diagnostic => package.extraction overrides decl = .error diagnostic)
    (Extracted.faulty (package.extraction overrides) (package.marked overrides)) found

/-- What all declarations of a package are extracted to, as the roster takes it. -/
def results (package : Package) (overrides : Overrides) : List Extracted :=
  resultsOf (package.settings overrides) package.crate.host
    (package.crate.host.symbolNamed? (package.settings overrides).marker)

theorem jobs_results (package : Package) (overrides : Overrides) :
    Extracted.jobs (package.results overrides) =
      Extracted.jobs ((package.marked overrides).map (package.extraction overrides)) :=
  (package.crate.found_host (package.settings overrides)).1

theorem diagnostics_results (package : Package) (overrides : Overrides) :
    Extracted.diagnostics (package.results overrides) =
      Extracted.diagnostics ((package.marked overrides).map (package.extraction overrides)) :=
  (package.crate.found_host (package.settings overrides)).2

/-- A pass over a package with valid settings ends as its roster does. -/
theorem result_of_valid {package : Package} {overrides : Overrides}
    (hvalid : (package.settings overrides).validate = .ok ()) (sink : MemorySink) :
    (package.generate overrides .never sink).2 =
      (roster (package.results overrides)).map
        (outcomeOf (package.settings overrides) package.crate.host
          (Stats.ofResults package.crate.host.decls.length (package.results overrides))) := by
  rw [generate_of_valid hvalid, generate_memory_snd, preparePass_never, results]

/-- A pass succeeds exactly when the settings are valid and there is a roster. -/
theorem result_eq_ok_iff {package : Package} {overrides : Overrides} {sink : MemorySink}
    {outcome : Outcome} :
    (package.generate overrides .never sink).2 = .ok outcome ↔
      (package.settings overrides).validate = .ok () ∧
        ∃ jobs, roster (package.results overrides) = .ok jobs ∧
          outcome = outcomeOf (package.settings overrides) package.crate.host
            (Stats.ofResults package.crate.host.decls.length (package.results overrides)) jobs := by
  cases hvalid : (package.settings overrides).validate with
  | error error => simp [generate_of_invalid hvalid]
  | ok _ =>
    rw [result_of_valid hvalid]
    cases roster (package.results overrides) with
    | error failure => simp [Except.map]
    | ok jobs => simp [Except.map, eq_comm]

/-- When every marked declaration has a job and no two jobs have one id, these jobs are the roster,
    and there is no other way to one. -/
theorem roster_results_eq_ok_iff {package : Package} {overrides : Overrides} {jobs : List Job} :
    roster (package.results overrides) = .ok jobs ↔
      ∃ found, package.JobsOfMarked overrides found ∧ (found.map Job.id).Nodup ∧
        jobs = sortedJobs (package.results overrides) := by
  rw [roster_eq_ok_iff, jobs_results, diagnostics_results]
  constructor
  · rintro ⟨hsound, hdistinct, heq⟩
    exact ⟨_, Extracted.forall₂_jobs
      (fun _ => Crate.extraction_ne_none_of_mem_marked) hsound, hdistinct, heq⟩
  · rintro ⟨found, hfound, hdistinct, heq⟩
    obtain ⟨hjobs, hsound⟩ := Extracted.jobs_of_forall₂ hfound
    exact ⟨hsound, by rwa [hjobs], heq⟩

/-- Nothing is lost or registered twice. A pass succeeds exactly when the settings are valid, every
    marked declaration has a job and no two jobs have one id. Its jobs are then those of the marked
    declarations in the order of their ids, and its unit is made of just these. With valid settings
    and a faulty marked declaration, every faulty one is reported once. -/
theorem generate_registers_marked (package : Package) (overrides : Overrides) (sink : MemorySink) :
    ((∃ outcome, (package.generate overrides .never sink).2 = .ok outcome) ↔
      (package.settings overrides).validate = .ok () ∧
        ∃ found, package.JobsOfMarked overrides found ∧ (found.map Job.id).Nodup) ∧
    (∀ outcome, (package.generate overrides .never sink).2 = .ok outcome →
      (∃ found, package.JobsOfMarked overrides found ∧ outcome.jobs.Perm found) ∧
      (outcome.jobs.Pairwise fun a b => Text.bytes a.id < Text.bytes b.id) ∧
      (outcome.unit = none ↔ package.marked overrides = []) ∧
      ∀ u, outcome.unit = some u →
        u = render (package.settings overrides) package.crate.name outcome.jobs) ∧
    ((package.settings overrides).validate = .ok () →
      (∃ decl ∈ package.marked overrides, ∃ diagnostic,
        package.extraction overrides decl = .error diagnostic) →
      ∃ reported found,
        (package.generate overrides .never sink).2 = .error (.diagnostics reported) ∧
        package.DiagnosticsOfMarked overrides found ∧ reported.Perm found) := by
  refine ⟨⟨?_, ?_⟩, ?_, ?_⟩
  · rintro ⟨outcome, hok⟩
    obtain ⟨hvalid, jobs, hroster, -⟩ := result_eq_ok_iff.mp hok
    obtain ⟨found, hfound, hdistinct, -⟩ := roster_results_eq_ok_iff.mp hroster
    exact ⟨hvalid, found, hfound, hdistinct⟩
  · rintro ⟨hvalid, found, hfound, hdistinct⟩
    have hroster := roster_results_eq_ok_iff.mpr ⟨found, hfound, hdistinct, rfl⟩
    exact ⟨_, result_eq_ok_iff.mpr ⟨hvalid, _, hroster, rfl⟩⟩
  · intro outcome hok
    obtain ⟨-, jobs, hroster, rfl⟩ := result_eq_ok_iff.mp hok
    obtain ⟨found, hfound, hdistinct, rfl⟩ := roster_results_eq_ok_iff.mp hroster
    have hjobs : Extracted.jobs (package.results overrides) = found := by
      rw [jobs_results, (Extracted.jobs_of_forall₂ hfound).1]
    have hperm : (sortedJobs (package.results overrides)).Perm found :=
      hjobs ▸ sortedJobs_perm (package.results overrides)
    -- the jobs of the outcome are the sorted ones, of which `found` is one order
    refine ⟨⟨found, hfound, hperm⟩, ?_, ?_, ?_⟩
    · rw [← hjobs, ← pairwise_id_lt_sortedJobs_iff] at hdistinct
      exact hdistinct.imp Text.bytes_lt_bytes_iff.mpr
    · rw [← List.length_eq_zero_iff, List.Forall₂.length_eq hfound, ← hperm.length_eq,
        List.length_eq_zero_iff]
      exact unitOf?_eq_none_iff
    · intro u hu
      exact unitOf?_eq_some hu
  · rintro hvalid ⟨decl, hdecl, diagnostic, hfault⟩
    have hfaulty : Extracted.diagnostics (package.results overrides) ≠ [] := by
      rw [diagnostics_results]
      exact List.ne_nil_of_mem (Extracted.mem_diagnostics_of_error hdecl hfault)
    refine ⟨sortedDiagnostics (package.results overrides), _, ?_,
      Extracted.forall₂_diagnostics _, ?_⟩
    · rw [result_of_valid hvalid, roster_of_faulty hfaulty]
      rfl
    · rw [← diagnostics_results]
      exact sortedDiagnostics_perm _

end Package

end JobRoster
