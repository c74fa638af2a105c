import Mathlib.Logic.Relation
import JobRoster.Proofs.Pass.Uncancelled

/-!
# A pass as its workers make it

Workers take the candidates in any order, several at a time, and the pass can be cancelled between
any two of their steps or while one of them reads arguments. Every step looks at the cancellation
once at most. However the steps fall, what comes of them is a pass that sees its cancellation at
certain of the moments at which it looks, and sees it ever after.
-/

namespace JobRoster

variable {δ α ε σ S : Type}

/-! ## Moments of a pass -/

/-- How far the workers are with one candidate. -/
inductive Phase where
  | waiting
  /-- A worker has seen that the pass is not cancelled and has begun to extract the candidate. -/
  | taken
  /-- Its arguments have been read. -/
  | read
  | done (visit : Visit)

/-- What became of a candidate, once it is done. -/
def Phase.visit? : Phase → Option Visit
  | done visit => some visit
  | _ => none

/-- A candidate in the hands of the workers. -/
structure Slot (δ : Type) where
  decl : δ
  phase : Phase

namespace Slot

/-- Whether a worker is on it. -/
def isBusy (slot : Slot δ) : Bool :=
  match slot.phase with
  | .taken | .read => true
  | _ => false

def visit? (slot : Slot δ) : Option Visit :=
  slot.phase.visit?

end Slot

/-- Where a pass stands. -/
inductive Stage (δ : Type) where
  | starting
  | extracting (slots : List (Slot δ))
  /-- The roster is made. -/
  | gathered (jobs : List Job)
  /-- The unit is rendered. -/
  | prepared (outcome : Outcome)
  /-- The pass has looked for the last time whether it is cancelled. -/
  | cleared (outcome : Outcome)
  | ended (result : Except Failure Outcome)

/-- All there is to a pass at one moment. -/
structure Moment (δ S : Type) where
  cancelled : Bool
  /-- How often arguments have been read. -/
  reads : Nat
  stats : Stats
  sink : S
  stage : Stage δ

/-- The moment before a pass, which nobody has cancelled yet. -/
def Moment.first (sink : S) : Moment δ S :=
  ⟨false, 0, ⟨0, 0, 0, 0, 0⟩, sink, .starting⟩

/-- The counters with one more result. -/
def Stats.count (stats : Stats) : Extracted → Stats
  | .ok (some _) => { stats with records := stats.records + 1 }
  | .ok none => { stats with skipped := stats.skipped + 1 }
  | .error _ => { stats with diagnostics := stats.diagnostics + 1 }

/-! ## Steps -/

/-- Who works on a pass, and when it is cancelled. -/
structure Regime where
  workers : Nat
  /-- Whether the pass may be cancelled from outside, at any moment. -/
  outside : Bool
  /-- Whether it is cancelled while arguments are read for the `n`-th time. -/
  atRead : Nat → Bool

section Steps

/-- The moment after the candidates are found. -/
def Moment.started (settings : Settings) (host : Declarations δ α ε σ) (m : Moment δ S) :
    Moment δ S :=
  let scanned := host.decls.length
  let found := candidates host settings.markerShortName
  if found.isEmpty then
    { m with stats := ⟨scanned, 0, 0, 0, 0⟩, stage := .gathered [] }
  else if (host.symbolNamed? settings.marker).isNone then
    { m with stats := ⟨scanned, found.length, 0, found.length, 0⟩, stage := .gathered [] }
  else if m.cancelled then
    { m with stats := ⟨scanned, found.length, 0, 0, 0⟩, stage := .ended (.error .cancelled) }
  else
    { m with
      stats := ⟨scanned, found.length, 0, 0, 0⟩
      stage := .extracting (found.map fun decl => ⟨decl, .waiting⟩) }

/-- The moment after all candidates are visited. -/
def Moment.gathered (visits : List Visit) (m : Moment δ S) : Moment δ S :=
  { m with
    stage :=
      if m.cancelled then .ended (.error .cancelled)
      else
        match roster (visits.map Visit.extracted) with
        | .error failure => .ended (.error failure)
        | .ok jobs => .gathered jobs }

/-- The moment after the outcome is published. -/
def Moment.published [Sink S] (settings : Settings) (outcome : Outcome) (m : Moment δ S) :
    Moment δ S :=
  let (sink, done) := (publicationOf settings outcome.unit).apply m.sink
  { m with sink, stage := .ended (done.map fun _ => outcome) }

/-- One step of a pass, made by whoever comes next. -/
inductive Step [Sink S] (regime : Regime) (settings : Settings) (host : Declarations δ α ε σ) :
    Moment δ S → Moment δ S → Prop where
  /-- Somebody cancels the pass. -/
  | cancel {m} (outside : regime.outside = true) :
    Step regime settings host m { m with cancelled := true }
  | start {m} (stage : m.stage = .starting) :
    Step regime settings host m (m.started settings host)
  /-- A worker comes to a candidate and sees that the pass is cancelled. -/
  | skip {m before slot after} (stage : m.stage = .extracting (before ++ slot :: after))
    (waiting : slot.phase = .waiting) (free : (before ++ after).countP Slot.isBusy < regime.workers)
    (cancelled : m.cancelled = true) :
    Step regime settings host m
      { m with
        stats := m.stats.count (.ok none)
        stage := .extracting (before ++ ⟨slot.decl, .done none⟩ :: after) }
  | take {m before slot after} (stage : m.stage = .extracting (before ++ slot :: after))
    (waiting : slot.phase = .waiting) (free : (before ++ after).countP Slot.isBusy < regime.workers)
    (cancelled : m.cancelled = false) :
    Step regime settings host m
      { m with stage := .extracting (before ++ ⟨slot.decl, .taken⟩ :: after) }
  | read {m before slot after} (stage : m.stage = .extracting (before ++ slot :: after))
    (taken : slot.phase = .taken)
    (reads : readsArguments host (host.symbolNamed? settings.marker) slot.decl = true) :
    Step regime settings host m
      { m with
        cancelled := m.cancelled || regime.atRead (m.reads + 1)
        reads := m.reads + 1
        stage := .extracting (before ++ ⟨slot.decl, .read⟩ :: after) }
  | finish {m before slot after} (stage : m.stage = .extracting (before ++ slot :: after))
    (ready : slot.phase = .read ∨ slot.phase = .taken ∧
      readsArguments host (host.symbolNamed? settings.marker) slot.decl = false) :
    Step regime settings host m
      { m with
        stats := m.stats.count (extract host (host.symbolNamed? settings.marker) slot.decl)
        stage := .extracting (before ++
          ⟨slot.decl, .done (some (extract host (host.symbolNamed? settings.marker) slot.decl))⟩ ::
            after) }
  /-- The pass waits for its workers, then looks again. -/
  | gather {m slots visits} (stage : m.stage = .extracting slots)
    (done : slots.map Slot.phase = visits.map Phase.done) :
    Step regime settings host m (m.gathered visits)
  | prepare {m jobs} (stage : m.stage = .gathered jobs) :
    Step regime settings host m { m with stage := .prepared (outcomeOf settings host m.stats jobs) }
  | clear {m outcome} (stage : m.stage = .prepared outcome) :
    Step regime settings host m
      { m with stage := if m.cancelled then .ended (.error .cancelled) else .cleared outcome }
  | publish {m outcome} (stage : m.stage = .cleared outcome) :
    Step regime settings host m (m.published settings outcome)

/-- Any number of steps, one after another. -/
abbrev Steps [Sink S] (regime : Regime) (settings : Settings) (host : Declarations δ α ε σ) :
    Moment δ S → Moment δ S → Prop :=
  Relation.ReflTransGen (Step regime settings host)

end Steps

/-! ## What a pass has seen -/

namespace Cancellation

/-- What a pass has seen of its cancellation when it has yet to look for the last time. -/
structure SoFar (seen : Cancellation) (cancelled : Bool) : Prop where
  start : seen.atStart = true → ∀ i, seen.atCandidate i = true
  candidate : ∀ i, seen.atCandidate i = true → seen.afterCandidates = true
  afterStart : seen.atStart = true → seen.afterCandidates = true
  after : seen.afterCandidates = true → cancelled = true

theorem SoFar.lasting {seen : Cancellation} {cancelled : Bool} (h : seen.SoFar cancelled) :
    Lasting { seen with atPublish := cancelled } :=
  ⟨h.start, h.candidate, h.afterStart, h.after⟩

theorem SoFar.mono {seen : Cancellation} {cancelled cancelled' : Bool} (h : seen.SoFar cancelled)
    (later : cancelled = true → cancelled' = true) : seen.SoFar cancelled' :=
  ⟨h.start, h.candidate, h.afterStart, fun hafter => later (h.after hafter)⟩

theorem soFar_never (cancelled : Bool) : SoFar never cancelled := by
  constructor <;> simp [never]

end Cancellation

/-! ## Counters -/

/-- The counters when some of the candidates have come to results. -/
def Stats.tally (scanned candidates : Nat) (results : List Extracted) : Stats :=
  { Stats.ofResults scanned results with candidates }

theorem Stats.tally_insert (scanned candidates : Nat) (results more : List Extracted)
    (result : Extracted) :
    Stats.tally scanned candidates (results ++ result :: more) =
      (Stats.tally scanned candidates (results ++ more)).count result := by
  -- what is skipped is counted by subtraction, which is exact because of these bounds
  have hresults := Extracted.length_jobs_add_diagnostics_le results
  have hmore := Extracted.length_jobs_add_diagnostics_le more
  rcases result with diagnostic | _ | job <;>
    simp only [tally, ofResults, count, Extracted.jobs_append, Extracted.diagnostics_append,
      Extracted.jobs_error_cons, Extracted.jobs_none_cons, Extracted.jobs_some_cons,
      Extracted.diagnostics_error_cons, Extracted.diagnostics_ok_cons, List.length_append,
      List.length_cons, Stats.mk.injEq, true_and, and_true] <;> omega

/-! ## Candidates in the hands of the workers -/

section Slots

namespace Slot

/-- Candidates are passed over in a cancelled pass only, and else they come to what extraction
    makes of them. -/
def Sound (host : Declarations δ α ε σ) (marker : Option σ) (cancelled : Bool) (slot : Slot δ) :
    Prop :=
  match slot.phase with
  | .done none => cancelled = true
  | .done (some result) => result = extract host marker slot.decl
  | _ => True

/-- Whether its arguments have been read. -/
def hasRead (host : Declarations δ α ε σ) (marker : Option σ) (slot : Slot δ) : Bool :=
  match slot.phase with
  | .read | .done (some _) => readsArguments host marker slot.decl
  | _ => false

theorem Sound.mono {host : Declarations δ α ε σ} {marker : Option σ} {cancelled cancelled' : Bool}
    {slot : Slot δ} (h : slot.Sound host marker cancelled)
    (later : cancelled = true → cancelled' = true) : slot.Sound host marker cancelled' := by
  obtain ⟨decl, phase⟩ := slot
  rcases phase with _ | _ | _ | (_ | result)
  case done.none => exact later h
  all_goals exact h

end Slot

/-- What holds while candidates are extracted. -/
structure Extracting (settings : Settings) (host : Declarations δ α ε σ) (m : Moment δ S)
    (slots : List (Slot δ)) : Prop where
  decls : slots.map Slot.decl = candidates host settings.markerShortName
  found : slots ≠ []
  known : (host.symbolNamed? settings.marker).isNone = false
  sound : ∀ slot ∈ slots, slot.Sound host (host.symbolNamed? settings.marker) m.cancelled
  reads : m.reads = slots.countP (Slot.hasRead host (host.symbolNamed? settings.marker))
  stats : m.stats = Stats.tally host.decls.length slots.length
    ((slots.filterMap Slot.visit?).map Visit.extracted)

/-- Before the workers begin. -/
theorem extracting_waiting {settings : Settings} {host : Declarations δ α ε σ} {m : Moment δ S}
    (found : (candidates host settings.markerShortName).isEmpty = false)
    (known : (host.symbolNamed? settings.marker).isNone = false) (reads : m.reads = 0)
    (stats : m.stats =
      ⟨host.decls.length, (candidates host settings.markerShortName).length, 0, 0, 0⟩) :
    Extracting settings host m
      ((candidates host settings.markerShortName).map fun decl => ⟨decl, .waiting⟩) := by
  constructor
  case decls => simp [Function.comp_def]
  case found => simpa using found
  case known => exact known
  case sound =>
    intro slot hslot
    obtain ⟨decl, -, rfl⟩ := List.mem_map.mp hslot
    exact trivial
  case reads => simp [reads, Slot.hasRead, List.countP_map, Function.comp_def]
  case stats =>
    simp [stats, Stats.tally, Stats.ofResults, Slot.visit?, Phase.visit?, List.filterMap_map,
      Function.comp_def]

/-- A worker takes one candidate a step further. -/
theorem Extracting.replace {settings : Settings} {host : Declarations δ α ε σ} {m m' : Moment δ S}
    {before after : List (Slot δ)} {slot slot' : Slot δ}
    (h : Extracting settings host m (before ++ slot :: after))
    (decl : slot'.decl = slot.decl)
    (later : m.cancelled = true → m'.cancelled = true)
    (sound : slot'.Sound host (host.symbolNamed? settings.marker) m'.cancelled)
    (reads : m'.reads + (slot.hasRead host (host.symbolNamed? settings.marker)).toNat =
      m.reads + (slot'.hasRead host (host.symbolNamed? settings.marker)).toNat)
    (unfinished : slot.visit? = none)
    (stats : m'.stats = match slot'.visit? with
      | none => m.stats
      | some visit => m.stats.count visit.extracted) :
    Extracting settings host m' (before ++ slot' :: after) := by
  constructor
  case decls => simpa [decl] using h.decls
  case found => simp
  case known => exact h.known
  case sound =>
    intro other hother
    rcases List.mem_append.mp hother with hbefore | hafter
    · exact (h.sound other (by simp [hbefore])).mono later
    · rcases List.mem_cons.mp hafter with rfl | hafter
      · exact sound
      · exact (h.sound other (by simp [hafter])).mono later
  case reads =>
    have hreads := h.reads
    simp only [List.countP_append, List.countP_cons] at hreads ⊢
    cases hslot : slot.hasRead host (host.symbolNamed? settings.marker) <;>
      cases hslot' : slot'.hasRead host (host.symbolNamed? settings.marker) <;>
      simp [hslot, hslot'] at reads hreads ⊢ <;> omega
  case stats =>
    have hstats := h.stats
    simp only [List.filterMap_append, List.filterMap_cons, unfinished, List.map_append,
      List.length_append, List.length_cons] at hstats ⊢
    rw [stats]
    cases slot'.visit? with
    | none => exact hstats
    | some visit => rw [hstats, List.map_cons, Stats.tally_insert]

/-- What the pass has seen when all candidates are visited. -/
def seenBy (visits : List Visit) (cancelled : Bool) : Cancellation where
  atStart := false
  atCandidate i := decide (visits[i]? = some none)
  afterCandidates := cancelled
  atPublish := cancelled

section Gathering

variable {settings : Settings} {host : Declarations δ α ε σ} {m : Moment δ S}
  {slots : List (Slot δ)} {visits : List Visit}

theorem phase_of_done (done : slots.map Slot.phase = visits.map Phase.done) {i : Nat}
    (hslot : i < slots.length) (hvisit : i < visits.length) :
    slots[i].phase = .done visits[i] := by
  have hi := congrArg (·[i]?) done
  simpa [hslot, hvisit] using hi

theorem filterMap_visit?_of_done (done : slots.map Slot.phase = visits.map Phase.done) :
    slots.filterMap Slot.visit? = visits := by
  have hvisits : slots.filterMap Slot.visit? = (slots.map Slot.phase).filterMap Phase.visit? := by
    rw [List.filterMap_map]
    rfl
  rw [hvisits, done, List.filterMap_map]
  exact List.filterMap_some

theorem Extracting.soFar (h : Extracting settings host m slots)
    (done : slots.map Slot.phase = visits.map Phase.done) :
    (seenBy visits m.cancelled).SoFar m.cancelled := by
  refine ⟨by simp [seenBy], ?_, by simp [seenBy], id⟩
  -- whoever passed over the `i`-th candidate saw the pass cancelled, and so it still is
  intro i hskipped
  have hskipped : visits[i]? = some none := of_decide_eq_true hskipped
  have hphase : (slots.map Slot.phase)[i]? = some (.done none) := by
    rw [done, List.getElem?_map, hskipped]
    rfl
  obtain ⟨slot, hslot, hphase⟩ := List.mem_map.mp (List.mem_of_getElem? hphase)
  have hsound := h.sound slot hslot
  simp only [Slot.Sound, hphase] at hsound
  exact hsound

/-- Each visit is the one that the pass makes by what it has seen. -/
theorem Extracting.visitAll (h : Extracting settings host m slots)
    (done : slots.map Slot.phase = visits.map Phase.done) :
    JobRoster.visitAll host (host.symbolNamed? settings.marker) (seenBy visits m.cancelled)
      (candidates host settings.markerShortName) = visits := by
  have hlength : slots.length = visits.length := by simpa using congrArg List.length done
  rw [← h.decls]
  apply List.ext_getElem
  · simp [JobRoster.visitAll, hlength]
  · intro i hi hvisit
    have hslot : i < slots.length := hlength ▸ hvisit
    have hphase := phase_of_done done hslot hvisit
    have hsound := h.sound slots[i] (List.getElem_mem hslot)
    simp only [Slot.Sound, hphase] at hsound
    simp only [JobRoster.visitAll, List.getElem_mapIdx, List.getElem_map, seenBy,
      List.getElem?_eq_getElem hvisit, Option.some.injEq, decide_eq_true_eq]
    cases hvisited : visits[i] with
    | none => simp
    | some result =>
      rw [hvisited] at hsound
      simp [hsound]

theorem Extracting.readsOf (h : Extracting settings host m slots)
    (done : slots.map Slot.phase = visits.map Phase.done) :
    JobRoster.readsOf host (host.symbolNamed? settings.marker) (seenBy visits m.cancelled)
      (candidates host settings.markerShortName) = m.reads := by
  have hlength : slots.length = visits.length := by simpa using congrArg List.length done
  have hreads : (slots.map Slot.decl).mapIdx (fun i decl =>
        !(seenBy visits m.cancelled).atCandidate i &&
          readsArguments host (host.symbolNamed? settings.marker) decl) =
      slots.map (Slot.hasRead host (host.symbolNamed? settings.marker)) := by
    apply List.ext_getElem
    · simp
    · intro i hi hslot
      have hslot : i < slots.length := by simpa using hslot
      have hvisit : i < visits.length := hlength ▸ hslot
      have hphase := phase_of_done done hslot hvisit
      simp only [List.getElem_mapIdx, List.getElem_map, seenBy, List.getElem?_eq_getElem hvisit,
        Option.some.injEq, Slot.hasRead, hphase]
      cases visits[i] <;> simp
  rw [readsOf_eq_count, ← h.decls, hreads, h.reads, count_true_map]

/-- When all candidates are visited, the pass is the one that has seen what its workers saw. -/
theorem Extracting.runPass (h : Extracting settings host m slots)
    (done : slots.map Slot.phase = visits.map Phase.done) :
    JobRoster.runPass settings host (host.symbolNamed? settings.marker)
        (seenBy visits m.cancelled) =
      ⟨m.stats, m.reads,
        if m.cancelled then .error .cancelled else roster (visits.map Visit.extracted)⟩ := by
  have hlength : slots.length = visits.length := by simpa using congrArg List.length done
  have hfound : (candidates host settings.markerShortName).isEmpty = false := by
    rw [← h.decls, List.isEmpty_eq_false_iff]
    simpa using h.found
  have hstats : statsOf host.decls.length visits = m.stats := by
    rw [h.stats, filterMap_visit?_of_done done, statsOf_eq, hlength]
    simp [Stats.tally, Stats.ofResults]
  -- the pass has candidates and knows the marker, so it does not end early
  unfold JobRoster.runPass
  simp only [hfound, h.known, Bool.false_eq_true, if_false]
  rw [h.visitAll done, h.readsOf done, hstats]
  rfl

end Gathering

end Slots

/-! ## What every moment follows from -/

section Following

variable [Sink S] {regime : Regime} {settings : Settings}
  {host : Declarations δ α ε σ} {sink : S} {m m' : Moment δ S}

/-- A moment is on the way of a pass that sees its cancellation as it has been seen up to now. -/
def Moment.Follows (settings : Settings) (host : Declarations δ α ε σ) (sink : S)
    (m : Moment δ S) : Prop :=
  let run := runPass settings host (host.symbolNamed? settings.marker)
  match m.stage with
  | .starting => m.sink = sink ∧ m.reads = 0
  | .extracting slots => m.sink = sink ∧ Extracting settings host m slots
  | .gathered jobs =>
    m.sink = sink ∧ ∃ seen, seen.SoFar m.cancelled ∧ run seen = ⟨m.stats, m.reads, .ok jobs⟩
  | .prepared outcome =>
    m.sink = sink ∧ ∃ seen, seen.SoFar m.cancelled ∧
      run seen = ⟨m.stats, m.reads, .ok outcome.jobs⟩ ∧
      outcome = outcomeOf settings host m.stats outcome.jobs
  | .cleared outcome =>
    m.sink = sink ∧ ∃ seen, seen.Lasting ∧ run seen = ⟨m.stats, m.reads, .ok outcome.jobs⟩ ∧
      preparePass settings host seen = .ok outcome
  | .ended result =>
    ∃ seen, seen.Lasting ∧ (run seen).stats = m.stats ∧ (run seen).reads = m.reads ∧
      generate settings host seen sink = (m.sink, result)

theorem follows_first : (Moment.first sink).Follows settings host sink :=
  ⟨rfl, rfl⟩

theorem follows_cancel (h : m.Follows settings host sink) :
    Moment.Follows settings host sink { m with cancelled := true } := by
  -- only what has been seen is bound by the cancellation, and that stays as it was
  unfold Moment.Follows at h ⊢
  cases hstage : m.stage with
  | starting => simpa [hstage] using h
  | extracting slots =>
    simp only [hstage] at h ⊢
    obtain ⟨hsink, hextracting⟩ := h
    exact ⟨hsink, { hextracting with
      sound := fun slot hslot => (hextracting.sound slot hslot).mono fun _ => rfl }⟩
  | gathered jobs =>
    simp only [hstage] at h ⊢
    obtain ⟨hsink, seen, hseen, hrun⟩ := h
    exact ⟨hsink, seen, hseen.mono fun _ => rfl, hrun⟩
  | prepared outcome =>
    simp only [hstage] at h ⊢
    obtain ⟨hsink, seen, hseen, hrun⟩ := h
    exact ⟨hsink, seen, hseen.mono fun _ => rfl, hrun⟩
  | cleared outcome => simpa [hstage] using h
  | ended result => simpa [hstage] using h

theorem follows_started (h : m.Follows settings host sink) (stage : m.stage = .starting) :
    (m.started settings host).Follows settings host sink := by
  simp only [Moment.Follows, stage] at h
  obtain ⟨hsink, hreads⟩ := h
  unfold Moment.started
  simp only
  split
  case isTrue hempty =>
    refine ⟨hsink, .never, Cancellation.soFar_never m.cancelled, ?_⟩
    simp [runPass, hempty, hreads]
  split
  case isTrue hfound hunknown =>
    refine ⟨hsink, .never, Cancellation.soFar_never m.cancelled, ?_⟩
    simp [runPass, hfound, hunknown, hreads]
  split
  case isTrue hfound hknown hcancelled =>
    -- cancelled before extraction: no candidate is looked at
    have hrun : runPass settings host (host.symbolNamed? settings.marker) .before =
        ⟨⟨host.decls.length, (candidates host settings.markerShortName).length, 0, 0, 0⟩, 0,
          .error .cancelled⟩ := by
      simp [runPass, hfound, hknown, Cancellation.before]
    refine ⟨.before, Cancellation.lasting_before, ?_, ?_, ?_⟩
    · rw [hrun]
    · rw [hrun, hreads]
    · rw [generate_of_error (preparePass_of_error (by rw [hrun])), hsink]
  case isFalse hfound hknown hcancelled =>
    exact ⟨hsink, extracting_waiting (Bool.eq_false_iff.mpr hfound)
      (Bool.eq_false_iff.mpr hknown) hreads rfl⟩

theorem follows_gathered {slots : List (Slot δ)} {visits : List Visit}
    (h : m.Follows settings host sink) (stage : m.stage = .extracting slots)
    (done : slots.map Slot.phase = visits.map Phase.done) :
    (m.gathered visits).Follows settings host sink := by
  simp only [Moment.Follows, stage] at h
  obtain ⟨hsink, hextracting⟩ := h
  have hseen := hextracting.soFar done
  have hrun := hextracting.runPass done
  -- a pass that ends here looks no more, so it has seen all it will ever see
  have hended : ∀ failure, (runPass settings host (host.symbolNamed? settings.marker)
      (seenBy visits m.cancelled)).result = .error failure →
      ∃ seen, seen.Lasting ∧
        (runPass settings host (host.symbolNamed? settings.marker) seen).stats = m.stats ∧
        (runPass settings host (host.symbolNamed? settings.marker) seen).reads = m.reads ∧
        generate settings host seen sink = (m.sink, .error failure) := by
    intro failure hfailure
    refine ⟨_, hseen.lasting, ?_, ?_, ?_⟩
    · exact congrArg PassRun.stats hrun
    · exact congrArg PassRun.reads hrun
    · rw [hsink]
      exact generate_of_error (preparePass_of_error hfailure) sink
  unfold Moment.gathered
  split
  case isTrue hcancelled =>
    exact hended .cancelled (by rw [hrun, if_pos hcancelled])
  case isFalse hcancelled =>
    rw [if_neg hcancelled] at hrun
    cases hroster : roster (visits.map Visit.extracted) with
    | error failure => exact hended failure (by rw [hrun, hroster])
    | ok jobs => exact ⟨hsink, _, hseen, by rw [hrun, hroster]⟩

theorem follows_prepared {jobs : List Job} (h : m.Follows settings host sink)
    (stage : m.stage = .gathered jobs) :
    Moment.Follows settings host sink
      { m with stage := .prepared (outcomeOf settings host m.stats jobs) } := by
  simp only [Moment.Follows, stage] at h
  obtain ⟨hsink, seen, hseen, hrun⟩ := h
  exact ⟨hsink, seen, hseen, hrun, rfl⟩

theorem follows_cleared {outcome : Outcome} (h : m.Follows settings host sink)
    (stage : m.stage = .prepared outcome) :
    Moment.Follows settings host sink
      { m with stage := if m.cancelled then .ended (.error .cancelled) else .cleared outcome } := by
  simp only [Moment.Follows, stage] at h
  obtain ⟨hsink, seen, hseen, hrun, houtcome⟩ := h
  have hjobs : (runPass settings host (host.symbolNamed? settings.marker)
      { seen with atPublish := m.cancelled }).result = .ok outcome.jobs :=
    congrArg PassRun.result hrun
  have hprepared := preparePass_of_ok hjobs
  split
  case isTrue hcancelled =>
    refine ⟨_, hseen.lasting, congrArg PassRun.stats hrun, congrArg PassRun.reads hrun, ?_⟩
    rw [hsink]
    exact generate_of_error (by rw [hprepared, if_pos hcancelled]) sink
  case isFalse hcancelled =>
    refine ⟨hsink, _, hseen.lasting, hrun, ?_⟩
    rw [hprepared, if_neg hcancelled, houtcome]
    exact congrArg (fun run => Except.ok (outcomeOf settings host (PassRun.stats run) _)) hrun

theorem follows_published {outcome : Outcome} (h : m.Follows settings host sink)
    (stage : m.stage = .cleared outcome) :
    (m.published settings outcome).Follows settings host sink := by
  simp only [Moment.Follows, stage] at h
  obtain ⟨hsink, seen, hseen, hrun, hprepared⟩ := h
  refine ⟨seen, hseen, by rw [hrun]; rfl, by rw [hrun]; rfl, ?_⟩
  unfold generate
  simp only [hprepared, ← hsink]
  rfl

/-- Each step leads on along a pass that `generate` makes. -/
theorem Step.follows (step : Step regime settings host m m') (h : m.Follows settings host sink) :
    m'.Follows settings host sink := by
  cases step with
  | cancel => exact follows_cancel h
  | start stage => exact follows_started h stage
  | skip stage waiting free cancelled =>
    simp only [Moment.Follows, stage] at h
    refine ⟨h.1, h.2.replace rfl id cancelled ?_ ?_ rfl⟩
    · simp [Slot.hasRead, waiting]
    · simp [Slot.visit?, Phase.visit?, waiting]
  | take stage waiting free cancelled =>
    simp only [Moment.Follows, stage] at h
    refine ⟨h.1, h.2.replace rfl id trivial ?_ ?_ rfl⟩
    · simp [Slot.hasRead, waiting]
    · simp [Slot.visit?, Phase.visit?, waiting]
  | read stage taken reads =>
    simp only [Moment.Follows, stage] at h
    refine ⟨h.1, h.2.replace rfl ?_ trivial ?_ ?_ rfl⟩
    · intro hcancelled
      simp [hcancelled]
    · simp [Slot.hasRead, taken, reads]
    · simp [Slot.visit?, Phase.visit?, taken]
  | finish stage ready =>
    simp only [Moment.Follows, stage] at h
    refine ⟨h.1, h.2.replace rfl id rfl ?_ ?_ rfl⟩
    · rcases ready with hread | ⟨htaken, hunread⟩
      · simp [Slot.hasRead, hread]
      · simp [Slot.hasRead, htaken, hunread]
    · rcases ready with hread | ⟨htaken, -⟩
      · simp [Slot.visit?, Phase.visit?, hread]
      · simp [Slot.visit?, Phase.visit?, htaken]
  | gather stage done => exact follows_gathered h stage done
  | prepare stage => exact follows_prepared h stage
  | clear stage => exact follows_cleared h stage
  | publish stage => exact follows_published h stage

theorem Steps.follows (steps : Steps regime settings host (Moment.first sink) m) :
    m.Follows settings host sink := by
  induction steps with
  | refl => exact follows_first
  | tail _ step ih => exact step.follows ih

/-- However a pass is made, it ends as `generate` does for what it saw of its cancellation. -/
theorem Steps.ends_as_generate {result : Except Failure Outcome}
    (steps : Steps regime settings host (Moment.first sink) m) (ended : m.stage = .ended result) :
    ∃ seen, seen.Lasting ∧
      (runPass settings host (host.symbolNamed? settings.marker) seen).stats = m.stats ∧
      (runPass settings host (host.symbolNamed? settings.marker) seen).reads = m.reads ∧
      generate settings host seen sink = (m.sink, result) := by
  have hfollows := steps.follows
  simpa only [Moment.Follows, ended] using hfollows

end Following

end JobRoster
