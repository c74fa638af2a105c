import JobRoster.Proofs.Pass.Uncancelled

/-!
# What the result of a pass depends on

Hosts list their declarations in any order and with any number of others among them. The result of
a pass does not show it: neither the order of the declarations nor those that have nothing to do
with the marker make a difference to its jobs, its unit or its failure. Only the counters tell how
many more declarations there were.
-/

namespace JobRoster

variable {δ α ε σ : Type}

/-! ## Declarations that make no difference -/

/-- A declaration that carries nothing that denotes the marker, is a trait or has parameters. -/
def Irrelevant (host : Declarations δ α ε σ) (marker : Option σ) (decl : δ) : Prop :=
  (∀ symbol, marker = some symbol →
      ∀ attr ∈ host.attributes decl, host.denotes symbol attr = false) ∨
    host.kind decl = .trait ∨ 0 < host.generics decl

/-- The host with other declarations in place of its own. -/
def Declarations.withDecls (host : Declarations δ α ε σ) (decls : List δ) :
    Declarations δ α ε σ :=
  { host with decls }

/-- The counters when so many more declarations are scanned, some of them candidates. -/
def Stats.raised (stats : Stats) (scanned candidates : Nat) : Stats :=
  { stats with
    scanned := stats.scanned + scanned
    candidates := stats.candidates + candidates
    skipped := stats.skipped + candidates }

/-- With no declaration more the counters are the same. -/
@[simp] theorem Stats.raised_zero (stats : Stats) : stats.raised 0 0 = stats := rfl

theorem Irrelevant.extract {host : Declarations δ α ε σ} {marker : Option σ} {decl : δ}
    (h : Irrelevant host marker decl) : extract host marker decl = .ok none := by
  rw [extract_eq_none_iff]
  by_contra hmarked
  obtain ⟨hconcrete, hplain, attr, hattr, symbol, hmarker, hsymbol⟩ :=
    marking_ne_unmarked_iff.mp hmarked
  rcases h with hnothing | htrait | hgeneric
  · simp [hnothing symbol hmarker attr hattr] at hsymbol
  · rw [htrait] at hconcrete
    exact absurd hconcrete (by decide)
  · omega

/-! ## Results -/

section Insertion

variable (settings : Settings) {host : Declarations δ α ε σ} {decls extra : List δ}

theorem candidates_perm (h : decls.Perm (host.decls ++ extra)) (shortName : String) :
    (candidates (host.withDecls decls) shortName).Perm
      (candidates host shortName ++ extra.filter (isCandidate host shortName)) := by
  have hcandidates : candidates (host.withDecls decls) shortName =
      decls.filter (isCandidate host shortName) := rfl
  rw [hcandidates, candidates, ← List.filter_append]
  exact h.filter _

theorem resultsOf_perm (h : decls.Perm (host.decls ++ extra)) (marker : Option σ) :
    (resultsOf settings (host.withDecls decls) marker).Perm
      (resultsOf settings host marker ++
        (extra.filter (isCandidate host settings.markerShortName)).map (extract host marker)) := by
  have hresults : resultsOf settings (host.withDecls decls) marker =
      (candidates (host.withDecls decls) settings.markerShortName).map (extract host marker) := rfl
  rw [hresults, resultsOf, ← List.map_append]
  exact (candidates_perm h settings.markerShortName).map _

variable {marker : Option σ}

/-- With the same relevant declarations there are the same jobs and the same diagnostics. -/
theorem found_perm (h : decls.Perm (host.decls ++ extra))
    (hextra : ∀ decl ∈ extra, Irrelevant host marker decl) :
    (Extracted.jobs (resultsOf settings (host.withDecls decls) marker)).Perm
        (Extracted.jobs (resultsOf settings host marker)) ∧
      (Extracted.diagnostics (resultsOf settings (host.withDecls decls) marker)).Perm
        (Extracted.diagnostics (resultsOf settings host marker)) := by
  have hperm := resultsOf_perm settings h marker
  obtain ⟨hjobs, hdiagnostics⟩ := Extracted.eq_nil_of_none
    ((extra.filter (isCandidate host settings.markerShortName)).map (extract host marker)) <| by
      intro result hresult
      obtain ⟨decl, hdecl, rfl⟩ := List.mem_map.mp hresult
      exact (hextra decl (List.mem_of_mem_filter hdecl)).extract
  constructor
  · have hfound := hperm.filterMap Extracted.job?
    rwa [← Extracted.jobs, ← Extracted.jobs, Extracted.jobs_append, hjobs,
      List.append_nil] at hfound
  · have hfound := hperm.filterMap Extracted.diagnostic?
    rwa [← Extracted.diagnostics, ← Extracted.diagnostics, Extracted.diagnostics_append,
      hdiagnostics, List.append_nil] at hfound

/-- Irrelevant declarations are scanned, and perhaps looked at and skipped, and that is all. -/
theorem stats_ofResults_withDecls (h : decls.Perm (host.decls ++ extra))
    (hextra : ∀ decl ∈ extra, Irrelevant host marker decl) :
    Stats.ofResults decls.length (resultsOf settings (host.withDecls decls) marker) =
      (Stats.ofResults host.decls.length (resultsOf settings host marker)).raised extra.length
        (extra.countP (isCandidate host settings.markerShortName)) := by
  obtain ⟨hjobs, hdiagnostics⟩ := found_perm settings h hextra
  have hresults := (resultsOf_perm settings h marker).length_eq
  rw [List.length_append, List.length_map, ← List.countP_eq_length_filter] at hresults
  have hbound := Extracted.length_jobs_add_diagnostics_le (resultsOf settings host marker)
  -- jobs and diagnostics are as many as before, so every candidate more is one that is skipped
  simp only [Stats.ofResults, Stats.raised, hjobs.length_eq, hdiagnostics.length_eq, hresults,
    h.length_eq, List.length_append, Stats.mk.injEq, true_and, and_true]
  omega

end Insertion

/-! ## Passes -/

/-- The outcome with the counters as they are after so many more declarations. -/
def Outcome.raised (outcome : Outcome) (scanned candidates : Nat) : Outcome :=
  { outcome with stats := outcome.stats.raised scanned candidates }

theorem preparePass_withDecls {settings : Settings} {host : Declarations δ α ε σ}
    {decls extra : List δ} (h : decls.Perm (host.decls ++ extra))
    (hextra : ∀ decl ∈ extra, Irrelevant host (host.symbolNamed? settings.marker) decl) :
    EndAlike (fun outcome outcome' => outcome' = outcome.raised extra.length
        (extra.countP (isCandidate host settings.markerShortName)))
      (preparePass settings host .never) (preparePass settings (host.withDecls decls) .never) := by
  obtain ⟨hjobs, hdiagnostics⟩ := found_perm settings h hextra
  have hstats := stats_ofResults_withDecls settings h hextra
  have halike := roster_congr hjobs.symm hdiagnostics.symm
  rw [preparePass_never, preparePass_never]
  have hmarker : (host.withDecls decls).symbolNamed? = host.symbolNamed? := rfl
  rw [hmarker]
  -- rosters that end alike are both made or both missing
  revert halike
  cases roster (resultsOf settings host (host.symbolNamed? settings.marker)) with
  | error failure =>
    cases roster (resultsOf settings (host.withDecls decls)
        (host.symbolNamed? settings.marker)) with
    | error failure' => exact id
    | ok jobs' => exact False.elim
  | ok jobs =>
    cases roster (resultsOf settings (host.withDecls decls)
        (host.symbolNamed? settings.marker)) with
    | error failure' => exact False.elim
    | ok jobs' =>
      rintro rfl
      exact congrArg (outcomeOf settings host · jobs) hstats

/-- Passes that are prepared alike publish alike. -/
theorem generate_alike {S : Type} [Sink S] {settings : Settings} {host host' : Declarations δ α ε σ}
    {scanned candidates : Nat}
    (h : EndAlike (fun outcome outcome' => outcome' = outcome.raised scanned candidates)
      (preparePass settings host .never) (preparePass settings host' .never)) (sink : S) :
    (generate settings host' .never sink).1 = (generate settings host .never sink).1 ∧
      EndAlike (fun outcome outcome' => outcome' = outcome.raised scanned candidates)
        (generate settings host .never sink).2 (generate settings host' .never sink).2 := by
  unfold generate
  cases hprepared : preparePass settings host .never with
  | error failure =>
    cases hprepared' : preparePass settings host' .never with
    | error failure' =>
      rw [hprepared, hprepared'] at h
      exact ⟨rfl, h⟩
    | ok outcome' =>
      rw [hprepared, hprepared'] at h
      exact h.elim
  | ok outcome =>
    cases hprepared' : preparePass settings host' .never with
    | error failure' =>
      rw [hprepared, hprepared'] at h
      exact h.elim
    | ok outcome' =>
      rw [hprepared, hprepared'] at h
      obtain rfl : outcome' = outcome.raised scanned candidates := h
      refine ⟨rfl, ?_⟩
      have hunit : (outcome.raised scanned candidates).unit = outcome.unit := rfl
      simp only [hunit]
      cases ((publicationOf settings outcome.unit).apply sink).2 with
      | error failure => exact Failure.Agrees.refl failure
      | ok _ => exact rfl

/-- The result of a pass depends on the relevant declarations only, not on their order and not on
    others among them. Whatever a pass publishes, returns or reports is the same; counters are only
    raised by the irrelevant declarations, and by none if there are none. -/
theorem generate_withDecls {S : Type} [Sink S] (settings : Settings) (host : Declarations δ α ε σ)
    (decls extra : List δ) (h : decls.Perm (host.decls ++ extra))
    (hextra : ∀ decl ∈ extra, Irrelevant host (host.symbolNamed? settings.marker) decl) (sink : S) :
    (generate settings (host.withDecls decls) .never sink).1 =
        (generate settings host .never sink).1 ∧
      EndAlike (fun outcome outcome' => outcome' = outcome.raised extra.length
          (extra.countP (isCandidate host settings.markerShortName)))
        (generate settings host .never sink).2
        (generate settings (host.withDecls decls) .never sink).2 ∧
      (runPass settings (host.withDecls decls) (host.symbolNamed? settings.marker) .never).stats =
        (runPass settings host (host.symbolNamed? settings.marker) .never).stats.raised extra.length
          (extra.countP (isCandidate host settings.markerShortName)) := by
  obtain ⟨hsink, hresult⟩ := generate_alike (preparePass_withDecls h hextra) sink
  refine ⟨hsink, hresult, ?_⟩
  rw [runPass_never, runPass_never]
  exact stats_ofResults_withDecls settings h hextra

/-- A host with one type that carries the marker. Its declaration `false` is a trait that does, too,
    but it is not among those it lists. -/
def hostOfOne : Declarations Bool Unit String Unit where
  moduleIdentity := "demo"
  decls := [true]
  kind isType := if isType then .struct else .trait
  generics _ := 0
  identity isType := if isType then "demo::Job" else "demo::Kind"
  typePath? isType := some (if isType then "demo::Job" else "demo::Kind")
  location _ := ⟨⟨"lib.rs"⟩, 1⟩
  attributes _ := [()]
  shortName _ := "recurring_job"
  arguments _ := .ok [.positional "3 * * * *"]
  symbol? _ := some ()
  symbolNamed? _ := some ()
  constant? text := some (.str text)
  display text := text

theorem generate_withDecls_trait :
    [false, true].Perm (hostOfOne.decls ++ [false]) ∧
      (∀ decl ∈ [false],
        Irrelevant hostOfOne (hostOfOne.symbolNamed? Settings.default.marker) decl) ∧
      (generate Settings.default (hostOfOne.withDecls [false, true]) .never MemorySink.empty).1 =
        (generate Settings.default hostOfOne .never MemorySink.empty).1 := by
  have hperm : [false, true].Perm (hostOfOne.decls ++ [false]) := List.Perm.swap true false []
  have hextra : ∀ decl ∈ [false],
      Irrelevant hostOfOne (hostOfOne.symbolNamed? Settings.default.marker) decl := by
    intro decl hdecl
    obtain rfl := List.mem_singleton.mp hdecl
    exact .inr (.inl rfl)
  exact ⟨hperm, hextra,
    (generate_withDecls Settings.default hostOfOne [false, true] [false] hperm hextra
      MemorySink.empty).1⟩

end JobRoster
