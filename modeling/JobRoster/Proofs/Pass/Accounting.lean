import JobRoster.Proofs.Pass.Workers

/-!
# The counters of a pass add up

A pass counts each of its candidates once: as a record, as skipped or as a diagnostic. So its
counters tell what it came to, whoever extracted the candidates, in whatever order, and whenever the
pass was cancelled. Only a pass that is cancelled before its workers begin counts no candidate.
-/

namespace JobRoster

variable {δ α ε σ S : Type}

/-- What the counters of a pass say where it came to `result`. It came to it `early` if it was
    cancelled before its workers began. -/
structure Stats.Account (settings : Settings) (host : Declarations δ α ε σ) (early : Prop)
    (result : Except Failure (List Job)) (stats : Stats) : Prop where
  scanned : stats.scanned = host.decls.length
  candidates : stats.candidates = host.decls.countP (isCandidate host settings.markerShortName)
  total : ¬ early → stats.records + stats.skipped + stats.diagnostics = stats.candidates
  uncounted : early → stats.records = 0 ∧ stats.skipped = 0 ∧ stats.diagnostics = 0
  ok : ∀ jobs, result = .ok jobs → stats.records = jobs.length ∧ stats.diagnostics = 0
  faulty : ∀ found, result = .error (.diagnostics found) → stats.diagnostics = found.length
  clash : ∀ id first second, result = .error (.duplicateJobId id first second) →
    stats.diagnostics = 0 ∧ 2 ≤ stats.records

/-! ## What a roster was made of -/

section Roster

variable {results : List Extracted}

theorem length_of_roster_ok {jobs : List Job} (h : roster results = .ok jobs) :
    (Extracted.jobs results).length = jobs.length ∧ (Extracted.diagnostics results).length = 0 := by
  obtain ⟨hsound, -, rfl⟩ := roster_eq_ok_iff.mp h
  exact ⟨(sortedJobs_perm results).length_eq.symm, by rw [hsound, List.length_nil]⟩

theorem length_of_roster_faulty {found : List Diagnostic}
    (h : roster results = .error (.diagnostics found)) :
    (Extracted.diagnostics results).length = found.length := by
  by_cases hsound : Extracted.diagnostics results = []
  · rw [roster_of_sound hsound] at h
    cases hclash : firstClash? (sortedJobs results) <;> simp [hclash, clashReport] at h
  · rw [roster_of_faulty hsound] at h
    obtain rfl : sortedDiagnostics results = found := by simpa using h
    exact (sortedDiagnostics_perm results).length_eq.symm

theorem two_le_length_of_firstClash? {jobs : List Job} {clash : Job × Job}
    (h : firstClash? jobs = some clash) : 2 ≤ jobs.length := by
  match jobs with
  | [] | [_] => simp [firstClash?] at h
  | _ :: _ :: jobs => simp

/-- Two jobs are needed for a clash. -/
theorem length_of_roster_clash {id first second : String}
    (h : roster results = .error (.duplicateJobId id first second)) :
    (Extracted.diagnostics results).length = 0 ∧ 2 ≤ (Extracted.jobs results).length := by
  by_cases hsound : Extracted.diagnostics results = []
  · rw [roster_of_sound hsound] at h
    cases hclash : firstClash? (sortedJobs results) with
    | none => simp [hclash] at h
    | some clash =>
      have hlength := two_le_length_of_firstClash? hclash
      rw [(sortedJobs_perm results).length_eq] at hlength
      exact ⟨by rw [hsound, List.length_nil], hlength⟩
  · simp [roster_of_faulty hsound] at h

end Roster

/-! ## Passes by what they have seen -/

section Runs

variable {settings : Settings} {host : Declarations δ α ε σ}

theorem length_candidates (settings : Settings) (host : Declarations δ α ε σ) :
    (candidates host settings.markerShortName).length =
      host.decls.countP (isCandidate host settings.markerShortName) :=
  List.countP_eq_length_filter.symm

/-- The counters of a pass that extracted every candidate, or passed over some. -/
theorem Stats.account_ofResults {results : List Extracted} {result : Except Failure (List Job)}
    (hlength : results.length = (JobRoster.candidates host settings.markerShortName).length)
    (hresult : result = .error .cancelled ∨ result = roster results) :
    (Stats.ofResults host.decls.length results).Account settings host False result where
  scanned := rfl
  candidates := hlength.trans (length_candidates settings host)
  total _ := by
    have hle := Extracted.length_jobs_add_diagnostics_le results
    simp only [ofResults]
    omega
  uncounted := False.elim
  ok jobs h := by
    obtain rfl | rfl := hresult
    · cases h
    · exact length_of_roster_ok h
  faulty found h := by
    obtain rfl | rfl := hresult
    · cases h
    · exact length_of_roster_faulty h
  clash id first second h := by
    obtain rfl | rfl := hresult
    · cases h
    · exact length_of_roster_clash h

/-- Whatever a pass sees of its cancellation, its counters add up. -/
theorem account_runPass (settings : Settings) (host : Declarations δ α ε σ) (marker : Option σ)
    (seen : Cancellation) :
    (runPass settings host marker seen).stats.Account settings host
      (candidates host settings.markerShortName ≠ [] ∧ marker ≠ none ∧ seen.atStart = true)
      (runPass settings host marker seen).result := by
  have hfound := length_candidates settings host
  unfold runPass
  simp only
  split
  case isTrue hempty =>
    -- nothing was done, and no candidate is to be counted
    have hnil : candidates host settings.markerShortName = [] := List.isEmpty_iff.mp hempty
    rw [hnil] at hfound ⊢
    constructor <;> simp [← hfound]
  split
  case isTrue hunknown =>
    -- without the marker every candidate is skipped
    constructor <;> simp_all
  split
  case isTrue hnonempty hknown hstart =>
    have hearly : candidates host settings.markerShortName ≠ [] ∧ marker ≠ none ∧
        seen.atStart = true := by simp_all
    constructor <;> simp [hearly, ← hfound]
  case isFalse hstart =>
    -- the workers have a result for every candidate, if only that it was passed over
    have hlate : ¬ (candidates host settings.markerShortName ≠ [] ∧ marker ≠ none ∧
        seen.atStart = true) := fun h => hstart h.2.2
    rw [statsOf_eq, iff_false_intro hlate |> propext]
    refine Stats.account_ofResults (by simp [visitAll]) ?_
    split
    · exact .inl rfl
    · exact .inr rfl

end Runs

/-! ## Passes by their workers -/

namespace Stage

/-- Whether a pass has yet to come to its roster. -/
def isOpen : Stage δ → Bool
  | starting | extracting _ => true
  | _ => false

/-- The roster that a pass came to, or why it came to none. -/
def result? : Stage δ → Option (Except Failure (List Job))
  | gathered jobs => some (.ok jobs)
  | ended (.error failure) => some (.error failure)
  | _ => none

end Stage

section Closing

variable {settings : Settings} {host : Declarations δ α ε σ} {m : Moment δ S}
  {result : Except Failure (List Job)}

/-- A pass that comes to its roster at once has no candidates, does not know the marker or is
    cancelled. -/
theorem exists_run_of_started (reads : m.reads = 0)
    (hresult : (m.started settings host).stage.result? = some result) :
    ∃ seen, runPass settings host (host.symbolNamed? settings.marker) seen =
        ⟨(m.started settings host).stats, (m.started settings host).reads, result⟩ ∧
      (candidates host settings.markerShortName ≠ [] ∧ host.symbolNamed? settings.marker ≠ none ∧
        seen.atStart = true ↔ result = .error .cancelled) := by
  unfold Moment.started at hresult ⊢
  simp only at hresult ⊢
  split at hresult
  case isTrue hempty =>
    obtain rfl : .ok [] = result := by simpa [Stage.result?] using hresult
    refine ⟨.never, ?_, by simp [Cancellation.never]⟩
    simp [runPass, hempty, reads]
  split at hresult
  case isTrue hfound hunknown =>
    obtain rfl : .ok [] = result := by simpa [Stage.result?] using hresult
    refine ⟨.never, ?_, by simp [Cancellation.never]⟩
    simp [runPass, hfound, hunknown, reads]
  split at hresult
  case isTrue hfound hknown hcancelled =>
    obtain rfl : .error .cancelled = result := by simpa [Stage.result?] using hresult
    refine ⟨.before, ?_, by simp_all [Cancellation.before]⟩
    simp [runPass, hfound, hknown, hcancelled, reads, Cancellation.before]
  case isFalse => simp [Stage.result?] at hresult

/-- A pass whose workers are done has seen what they saw of its cancellation. -/
theorem Extracting.run_of_gathered {slots : List (Slot δ)} {visits : List Visit}
    (h : Extracting settings host m slots) (done : slots.map Slot.phase = visits.map Phase.done)
    (hresult : (m.gathered visits).stage.result? = some result) :
    JobRoster.runPass settings host (host.symbolNamed? settings.marker)
      (seenBy visits m.cancelled) = ⟨m.stats, m.reads, result⟩ := by
  rw [h.runPass done]
  unfold Moment.gathered at hresult
  split at hresult
  case isTrue hcancelled =>
    obtain rfl : .error .cancelled = result := by simpa [Stage.result?] using hresult
    rw [if_pos hcancelled]
  case isFalse hcancelled =>
    rw [if_neg hcancelled]
    cases hroster : roster (visits.map Visit.extracted) <;>
      simpa [hroster, Stage.result?] using hresult

end Closing

variable [Sink S] {regime : Regime} {settings : Settings} {host : Declarations δ α ε σ} {sink : S}
  {m m' : Moment δ S} {result : Except Failure (List Job)}

/-- A step by which a pass comes to its roster, or to a failure instead. -/
structure Closes (regime : Regime) (settings : Settings) (host : Declarations δ α ε σ)
    (m m' : Moment δ S) (result : Except Failure (List Job)) : Prop where
  isOpen : m.stage.isOpen = true
  step : Step regime settings host m m'
  result : m'.stage.result? = some result

/-- A pass comes to its roster as it starts, or when its workers are done. -/
theorem Closes.cases (closes : Closes regime settings host m m' result) :
    m.stage = .starting ∧ m' = m.started settings host ∨
      ∃ slots visits, m.stage = .extracting slots ∧
        slots.map Slot.phase = visits.map Phase.done ∧ m' = m.gathered visits := by
  obtain ⟨hopen, hstep, hresult⟩ := closes
  cases hstep with
  | start stage => exact .inl ⟨stage, rfl⟩
  | gather stage done => exact .inr ⟨_, _, stage, done, rfl⟩
  | cancel => cases hstage : m.stage <;> simp [hstage, Stage.isOpen, Stage.result?] at hopen hresult
  | skip | take | read | finish => simp [Stage.result?] at hresult
  | prepare stage | clear stage | publish stage => simp [stage, Stage.isOpen] at hopen

/-- However the workers of a pass go about it, and at whatever moments it is cancelled, its counters
    add up when it comes to its roster or fails: as many are scanned as there are declarations, as
    many are candidates as pass the test of names, and each candidate is counted once more for what
    became of it, unless the pass was cancelled before its workers began. -/
theorem account_of_closes (steps : Steps regime settings host (Moment.first sink) m)
    (closes : Closes regime settings host m m' result) :
    m'.stats.Account settings host (m.stage = .starting ∧ result = .error .cancelled) result := by
  have hfollows := steps.follows
  obtain ⟨stage, rfl⟩ | ⟨slots, visits, stage, done, rfl⟩ := closes.cases
  · simp only [Moment.Follows, stage] at hfollows
    obtain ⟨seen, hrun, hearly⟩ := exists_run_of_started hfollows.2 closes.result
    have haccount := account_runPass settings host (host.symbolNamed? settings.marker) seen
    rw [hrun, propext hearly] at haccount
    simpa [stage] using haccount
  · simp only [Moment.Follows, stage] at hfollows
    have hrun := hfollows.2.run_of_gathered done closes.result
    have haccount := account_runPass settings host (host.symbolNamed? settings.marker)
      (seenBy visits m.cancelled)
    rw [hrun] at haccount
    -- workers that have begun have not seen the pass cancelled at its start
    have hsame : (m.gathered visits).stats = m.stats := rfl
    simpa [stage, seenBy, hsame] using haccount

/-- A host with two types: one carries the marker twice, the other once. -/
def hostOfTwo : Declarations Bool Unit String Unit where
  moduleIdentity := "demo"
  decls := [true, false]
  kind _ := .struct
  generics _ := 0
  identity twice := if twice then "demo::Twice" else "demo::Once"
  typePath? twice := some (if twice then "demo::Twice" else "demo::Once")
  location _ := ⟨⟨"lib.rs"⟩, 1⟩
  attributes twice := if twice then [(), ()] else [()]
  shortName _ := "recurring_job"
  arguments _ := .ok [.positional "3 * * * *"]
  symbol? _ := some ()
  symbolNamed? _ := some ()
  constant? text := some (.str text)
  display text := text

/-- The pass is cancelled while one of two candidates is in hand. The other one is passed over. -/
theorem account_of_closes_between :
    let regime : Regime := ⟨2, true, fun _ => false⟩
    ∃ m m' : Moment Bool MemorySink,
      Steps regime Settings.default hostOfTwo (Moment.first MemorySink.empty) m ∧
      Closes regime Settings.default hostOfTwo m m' (.error .cancelled) ∧
      m'.stats = ⟨2, 2, 0, 1, 1⟩ ∧
      m'.stats.Account Settings.default hostOfTwo
        (m.stage = .starting ∧ (.error .cancelled : Except Failure (List Job)) = .error .cancelled)
        (.error .cancelled) := by
  intro regime
  let moment (cancelled : Bool) (stats : Stats) (first second : Phase) : Moment Bool MemorySink :=
    ⟨cancelled, 0, stats, MemorySink.empty, .extracting [⟨true, first⟩, ⟨false, second⟩]⟩
  let marker := hostOfTwo.symbolNamed? Settings.default.marker
  let reported : Visit := some (extract hostOfTwo marker true)
  have hfound : candidates hostOfTwo Settings.default.markerShortName = [true, false] := by
    decide +kernel
  have hstarted : (Moment.first MemorySink.empty).started Settings.default hostOfTwo =
      moment false ⟨2, 2, 0, 0, 0⟩ .waiting .waiting := by
    unfold Moment.started
    rw [hfound]
    rfl
  have htaken : Step regime Settings.default hostOfTwo
      (moment false ⟨2, 2, 0, 0, 0⟩ .waiting .waiting)
      (moment false ⟨2, 2, 0, 0, 0⟩ .taken .waiting) :=
    @Step.take _ _ _ _ _ _ _ _ _ _ [] ⟨true, .waiting⟩ _ rfl rfl Nat.zero_lt_two rfl
  have hskipped : Step regime Settings.default hostOfTwo
      (moment true ⟨2, 2, 0, 0, 0⟩ .taken .waiting)
      (moment true ⟨2, 2, 0, 1, 0⟩ .taken (.done none)) :=
    @Step.skip _ _ _ _ _ _ _ _ _ _ [⟨true, .taken⟩] ⟨false, .waiting⟩ [] rfl rfl Nat.one_lt_two rfl
  have hfinished : Step regime Settings.default hostOfTwo
      (moment true ⟨2, 2, 0, 1, 0⟩ .taken (.done none))
      (moment true ⟨2, 2, 0, 1, 1⟩ (.done reported) (.done none)) :=
    @Step.finish _ _ _ _ _ _ _ _ _ _ [] ⟨true, .taken⟩ _ rfl (.inr ⟨rfl, rfl⟩)
  have hsteps : Steps regime Settings.default hostOfTwo (Moment.first MemorySink.empty)
      (moment true ⟨2, 2, 0, 1, 1⟩ (.done reported) (.done none)) :=
    .head (hstarted ▸ .start rfl) <| .head htaken <| .head (.cancel rfl) <|
      .head hskipped <| .single hfinished
  have hcloses : Closes regime Settings.default hostOfTwo
      (moment true ⟨2, 2, 0, 1, 1⟩ (.done reported) (.done none)) _ (.error .cancelled) :=
    ⟨rfl, .gather rfl (show _ = [reported, none].map Phase.done from rfl), rfl⟩
  exact ⟨_, _, hsteps, hcloses, rfl, account_of_closes hsteps hcloses⟩

end JobRoster
