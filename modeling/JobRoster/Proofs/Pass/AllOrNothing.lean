import JobRoster.Proofs.Pass.Progress

/-!
# Cancellation is all or nothing

A candidate that is passed over looks like one that has no job, so a cancelled pass must not get as
far as its roster. It does not: once it has passed over a candidate, a pass ends as cancelled, and
else it ends as if nobody had cancelled it.
-/

namespace JobRoster

variable {δ α ε σ S : Type}

/-! ## What a cancellation does -/

section Lasting

variable (settings : Settings) (host : Declarations δ α ε σ) (marker : Option σ)
  {seen : Cancellation}

/-- A pass that is not cancelled when all candidates are visited has passed over none. -/
theorem runPass_of_unseen (lasting : seen.Lasting) (unseen : seen.afterCandidates = false) :
    runPass settings host marker seen = runPass settings host marker .never := by
  have hstart : seen.atStart = false := by
    cases hstart : seen.atStart with
    | false => rfl
    | true => simp [lasting.afterStart hstart] at unseen
  have hcandidate : seen.atCandidate = fun _ => false := by
    funext i
    cases hcandidate : seen.atCandidate i with
    | false => rfl
    | true => simp [lasting.candidate i hcandidate] at unseen
  simp [runPass, visitAll, readsOf, Cancellation.never, hstart, hcandidate, unseen]

/-- A pass that is cancelled when all candidates are visited has no roster, or one of nothing. -/
theorem result_of_seen (cancelled : seen.afterCandidates = true) :
    (runPass settings host marker seen).result = .ok [] ∨
      (runPass settings host marker seen).result = .error .cancelled := by
  unfold runPass
  simp only [cancelled, if_true]
  split_ifs <;> simp

theorem preparePass_of_seen (lasting : seen.Lasting) (cancelled : seen.afterCandidates = true) :
    preparePass settings host seen = .error .cancelled := by
  rcases result_of_seen settings host (host.symbolNamed? settings.marker) cancelled with
    hempty | hcancelled
  · rw [preparePass_of_ok hempty, if_pos (lasting.publish cancelled)]
  · exact preparePass_of_error hcancelled

/-- A pass that does not end as cancelled comes as far as one that nobody cancels. -/
theorem runPass_of_uncancelled (lasting : seen.Lasting)
    (uncancelled : preparePass settings host seen ≠ .error .cancelled) :
    runPass settings host (host.symbolNamed? settings.marker) seen =
      runPass settings host (host.symbolNamed? settings.marker) .never := by
  refine runPass_of_unseen settings host _ lasting ?_
  by_contra hseen
  exact uncancelled (preparePass_of_seen settings host lasting (by simpa using hseen))

/-- A pass that never sees its cancellation is one that nobody cancels. -/
theorem preparePass_of_unseen (lasting : seen.Lasting) (unseen : seen.atPublish = false) :
    preparePass settings host seen = preparePass settings host .never := by
  have hafter : seen.afterCandidates = false := by
    cases hafter : seen.afterCandidates with
    | false => rfl
    | true => simp [lasting.publish hafter] at unseen
  have hrun := runPass_of_unseen settings host (host.symbolNamed? settings.marker) lasting hafter
  cases hresult : (runPass settings host (host.symbolNamed? settings.marker) seen).result with
  | error failure => rw [preparePass_of_error hresult, preparePass_of_error (hrun ▸ hresult)]
  | ok jobs =>
    rw [preparePass_of_ok hresult, preparePass_of_ok (hrun ▸ hresult), unseen, hrun]
    rfl

theorem preparePass_lasting (lasting : seen.Lasting) :
    preparePass settings host seen = .error .cancelled ∨
      preparePass settings host seen = preparePass settings host .never := by
  by_cases huncancelled : preparePass settings host seen = .error .cancelled
  · exact .inl huncancelled
  · right
    have hrun := runPass_of_uncancelled settings host lasting huncancelled
    cases hresult : (runPass settings host (host.symbolNamed? settings.marker) seen).result with
    | error failure =>
      rw [preparePass_of_error hresult, preparePass_of_error (hrun ▸ hresult)]
    | ok jobs =>
      -- there is a roster, so only the last look can have found the pass cancelled
      have hpublish : seen.atPublish = false := by
        by_contra hpublish
        rw [preparePass_of_ok hresult, if_pos (by simpa using hpublish)] at huncancelled
        exact huncancelled rfl
      exact preparePass_of_unseen settings host lasting hpublish

/-- Whatever a pass sees of its cancellation, it ends as cancelled and has changed nothing, or it
    ends as it would have ended anyway. -/
theorem generate_lasting [Sink S] (lasting : seen.Lasting) (sink : S) :
    generate settings host seen sink = (sink, .error .cancelled) ∨
      generate settings host seen sink = generate settings host .never sink := by
  rcases preparePass_lasting settings host lasting with hcancelled | hnever
  · exact .inl (generate_of_error hcancelled sink)
  · right
    unfold generate
    rw [hnever]

theorem count_mapIdx_le (p : Nat → Bool) (q : δ → Bool) (found : List δ) :
    (found.mapIdx fun i decl => !p i && q decl).count true ≤ found.countP q := by
  -- for any `p`, since the places of the others move by one
  induction found generalizing p with
  | nil => simp
  | cons decl found ih =>
    have hrest := ih fun i => p (i + 1)
    rw [List.mapIdx_cons, List.count_cons, List.countP_cons]
    cases hp : p 0 <;> cases hq : q decl <;> simp <;> omega

/-- Cancelling a pass makes it read arguments less often, if it makes a difference. -/
theorem reads_le_never :
    (runPass settings host marker seen).reads ≤ (runPass settings host marker .never).reads := by
  rw [runPass_never]
  unfold runPass
  simp only
  split
  · exact Nat.zero_le _
  split
  · exact Nat.zero_le _
  split
  · exact Nat.zero_le _
  · rw [readsOf_eq_count]
    exact count_mapIdx_le _ _ _

/-- Publishing to memory does not fail, so only a pass that was cancelled ends as cancelled. -/
theorem generate_never_ne_cancelled (sink : MemorySink) :
    (generate settings host .never sink).2 ≠ .error .cancelled := by
  rw [generate_memory_snd, preparePass_never]
  cases hroster : roster (resultsOf settings host (host.symbolNamed? settings.marker)) with
  | error failure =>
    rintro ⟨⟩
    exact roster_ne_cancelled _ hroster
  | ok jobs => simp [Except.map]

end Lasting

/-! ## One worker, cancelled while it reads -/

section Solo

variable {settings : Settings} {host : Declarations δ α ε σ} {m m' : Moment δ MemorySink} {n : Nat}

/-- One worker, and a cancellation while arguments are read for the `n`-th time. -/
def Regime.solo (n : Nat) : Regime where
  workers := 1
  outside := false
  atRead k := k = n

/-- One worker reads no more once it has read for the `n`-th time. -/
def Moment.Solo (n : Nat) (m : Moment δ MemorySink) : Prop :=
  m.cancelled = decide (n ≤ m.reads) ∧
    match m.stage with
    | .starting => m.reads = 0
    | .extracting slots =>
      m.reads ≤ n ∧ slots.countP Slot.isBusy ≤ 1 ∧
        (n ≤ m.reads → ∀ slot ∈ slots, slot.phase ≠ .taken)
    | .gathered _ | .prepared _ | .cleared _ => m.reads < n
    | .ended result =>
      result = .error .cancelled ∧ m.reads = n ∨ result ≠ .error .cancelled ∧ m.reads < n

theorem countP_isBusy_insert (before after : List (Slot δ)) (slot : Slot δ) :
    (before ++ slot :: after).countP Slot.isBusy =
      (before ++ after).countP Slot.isBusy + slot.isBusy.toNat := by
  rw [List.countP_append, List.countP_append, List.countP_cons]
  cases slot.isBusy <;> simp [Nat.add_assoc]

theorem untaken_of_idle {slots : List (Slot δ)} (idle : slots.countP Slot.isBusy = 0) :
    ∀ slot ∈ slots, slot.phase ≠ .taken := by
  intro slot hslot htaken
  exact List.countP_eq_zero.mp idle slot hslot (by simp [Slot.isBusy, htaken])

/-- The worker takes its candidate a step further. The others are as before, and none of them is in
    its hands if this one is. -/
theorem solo_replace {before after : List (Slot δ)} {slot slot' : Slot δ} (h : m.Solo n)
    (stage : m.stage = .extracting (before ++ slot :: after))
    (stage' : m'.stage = .extracting (before ++ slot' :: after))
    (cancelled : m'.cancelled = decide (n ≤ m'.reads)) (reads : m'.reads ≤ n)
    (busy : (before ++ after).countP Slot.isBusy + slot'.isBusy.toNat ≤ 1)
    (late : n ≤ m'.reads → slot'.phase ≠ .taken ∧
      (n ≤ m.reads ∨ (before ++ after).countP Slot.isBusy = 0)) : m'.Solo n := by
  simp only [Moment.Solo, stage] at h
  simp only [Moment.Solo, stage', countP_isBusy_insert]
  refine ⟨cancelled, reads, busy, fun hlate => ?_⟩
  obtain ⟨huntaken, hothers⟩ := late hlate
  have hothers : ∀ slot ∈ before ++ after, slot.phase ≠ .taken := by
    rcases hothers with hbefore | hidle
    · intro other hother
      refine h.2.2.2 hbefore other ?_
      rcases List.mem_append.mp hother with hbefore | hafter
      · exact List.mem_append_left _ hbefore
      · exact List.mem_append_right _ (List.mem_cons_of_mem _ hafter)
    · exact untaken_of_idle hidle
  obtain ⟨hbefore, hafter⟩ := List.forall_mem_append.mp hothers
  exact List.forall_mem_append.mpr ⟨hbefore, List.forall_mem_cons.mpr ⟨huntaken, hafter⟩⟩

theorem solo_first (hn : 0 < n) (sink : MemorySink) :
    (Moment.first sink : Moment δ MemorySink).Solo n := by
  refine ⟨?_, rfl⟩
  simp [Moment.first, Nat.pos_iff_ne_zero.mp hn]

theorem solo_started (hn : 0 < n) (h : m.Solo n) (stage : m.stage = .starting) :
    (m.started settings host).Solo n := by
  simp only [Moment.Solo, stage] at h
  obtain ⟨hcancelled, hreads⟩ := h
  have huncancelled : ¬ m.cancelled = true := by
    simp [hcancelled, hreads, Nat.pos_iff_ne_zero.mp hn]
  unfold Moment.started
  simp only [if_neg huncancelled]
  split
  case isTrue => exact ⟨hcancelled, hreads ▸ hn⟩
  split
  case isTrue => exact ⟨hcancelled, hreads ▸ hn⟩
  case isFalse =>
    have hidle : ((candidates host settings.markerShortName).map fun decl =>
        (⟨decl, .waiting⟩ : Slot δ)).countP Slot.isBusy = 0 := by
      simp [List.countP_map, Function.comp_def, Slot.isBusy]
    exact ⟨hcancelled, hreads ▸ Nat.zero_le n, hidle ▸ Nat.zero_le 1,
      fun _ => untaken_of_idle hidle⟩

theorem solo_gathered {slots : List (Slot δ)} (visits : List Visit) (h : m.Solo n)
    (stage : m.stage = .extracting slots) : (m.gathered visits).Solo n := by
  simp only [Moment.Solo, stage] at h
  obtain ⟨hcancelled, hreads, -, -⟩ := h
  refine ⟨hcancelled, ?_⟩
  unfold Moment.gathered
  by_cases hn : n ≤ m.reads
  · rw [if_pos (by simp [hcancelled, hn])]
    exact .inl ⟨rfl, by simpa using Nat.le_antisymm hreads hn⟩
  · rw [if_neg (by simpa [hcancelled] using hn)]
    cases hroster : roster (visits.map Visit.extracted) with
    | error failure =>
      refine .inr ⟨?_, Nat.lt_of_not_le hn⟩
      rintro ⟨⟩
      exact roster_ne_cancelled _ hroster
    | ok jobs => exact Nat.lt_of_not_le hn

/-- Publishing to memory does not fail. -/
theorem stage_published (outcome : Outcome) :
    (m.published settings outcome).stage = .ended (.ok outcome) := by
  unfold Moment.published
  cases publicationOf settings outcome.unit <;> rfl

/-- A step of the one worker. While it has a candidate in hands, nobody else has another one, so
    after the `n`-th reading there is none left of which the arguments could yet be read. -/
theorem Step.solo (hn : 0 < n) (step : Step (Regime.solo n) settings host m m') (h : m.Solo n) :
    m'.Solo n := by
  cases step with
  | cancel outside => simp [Regime.solo] at outside
  | start stage => exact solo_started hn h stage
  | skip stage waiting free cancelled =>
    have hslots := h
    simp only [Moment.Solo, stage, countP_isBusy_insert] at hslots
    obtain ⟨hcancelled, hreads, hbusy, -⟩ := hslots
    have hlate : n ≤ m.reads := by simpa [cancelled] using hcancelled
    exact solo_replace h stage rfl hcancelled hreads
      ((Nat.le_add_right _ _).trans hbusy) fun _ => ⟨Phase.noConfusion, .inl hlate⟩
  | take stage waiting free cancelled =>
    have hslots := h
    simp only [Moment.Solo, stage] at hslots
    obtain ⟨hcancelled, hreads, -, -⟩ := hslots
    have hearly : ¬ n ≤ m.reads := by simpa [cancelled] using hcancelled
    exact solo_replace h stage rfl hcancelled hreads free fun hlate => absurd hlate hearly
  | @read before slot after stage taken reads =>
    have hslots := h
    simp only [Moment.Solo, stage, countP_isBusy_insert] at hslots
    obtain ⟨hcancelled, hreads, hbusy, huntaken⟩ := hslots
    -- after the `n`-th reading no candidate is left in this phase, so it has not been made yet
    have hearly : ¬ n ≤ m.reads := fun hlate => huntaken hlate slot (by simp) taken
    have hslot : slot.isBusy = true := by simp [Slot.isBusy, taken]
    have hidle : (before ++ after).countP Slot.isBusy = 0 := by
      rw [hslot, Bool.toNat_true] at hbusy
      omega
    refine solo_replace h stage rfl ?_ ?_ ?_ fun _ => ⟨Phase.noConfusion, .inr hidle⟩
    · have hnth : m.reads + 1 = n ↔ n ≤ m.reads + 1 := by omega
      simp [hcancelled, hearly, Regime.solo, hnth]
    · simp only
      omega
    · rw [hidle]
      rfl
  | finish stage ready =>
    have hslots := h
    simp only [Moment.Solo, stage, countP_isBusy_insert] at hslots
    obtain ⟨hcancelled, hreads, hbusy, -⟩ := hslots
    exact solo_replace h stage rfl hcancelled hreads
      ((Nat.le_add_right _ _).trans hbusy) fun hlate => ⟨Phase.noConfusion, .inl hlate⟩
  | gather stage done => exact solo_gathered _ h stage
  | prepare stage =>
    simp only [Moment.Solo, stage] at h
    exact h
  | clear stage =>
    simp only [Moment.Solo, stage] at h
    have huncancelled : ¬ m.cancelled = true := by simp [h.1, h.2]
    rw [if_neg huncancelled]
    exact h
  | publish stage =>
    simp only [Moment.Solo, stage] at h
    refine ⟨h.1, ?_⟩
    rw [stage_published]
    exact .inr ⟨by simp, h.2⟩

theorem Steps.solo {sink : MemorySink} (hn : 0 < n)
    (steps : Steps (Regime.solo n) settings host (Moment.first sink) m) : m.Solo n := by
  induction steps with
  | refl => exact solo_first hn sink
  | tail _ step ih => exact step.solo hn ih

/-- With one worker, the `n`-th reading is the last one and cancels the pass, if it is made. -/
theorem Steps.ends_solo {sink : MemorySink} {result : Except Failure Outcome} (hn : 0 < n)
    (steps : Steps (Regime.solo n) settings host (Moment.first sink) m)
    (ended : m.stage = .ended result) :
    (result = .error .cancelled ↔
        n ≤ (runPass settings host (host.symbolNamed? settings.marker) .never).reads) ∧
      (result = .error .cancelled → m.reads = n) := by
  obtain ⟨seen, hlasting, -, hreads, hgenerate⟩ := steps.ends_as_generate ended
  have hsolo := (steps.solo hn).2
  simp only [ended] at hsolo
  rcases hsolo with ⟨hcancelled, hnth⟩ | ⟨huncancelled, hearly⟩
  -- either the `n`-th reading was made, or the pass came to its end without it
  · refine ⟨iff_of_true hcancelled ?_, fun _ => hnth⟩
    rw [← hnth, ← hreads]
    exact reads_le_never settings host _
  · have hprepared : preparePass settings host seen ≠ .error .cancelled := by
      rw [← generate_memory_snd settings host seen sink, hgenerate]
      exact huncancelled
    rw [← runPass_of_uncancelled settings host hlasting hprepared, hreads]
    exact ⟨iff_of_false huncancelled (Nat.not_le_of_lt hearly),
      fun hcancelled => absurd hcancelled huncancelled⟩

end Solo

/-! ## The candidates in their order -/

section DuringRead

variable {settings : Settings} {host : Declarations δ α ε σ}

theorem count_mapIdx_duringRead (q : δ → Bool) (found : List δ) (n : Nat) :
    (found.mapIdx fun i decl =>
      !decide (n ≤ ((found.map q).take i).count true) && q decl).count true =
        min n (found.countP q) := by
  -- for any `n`, since each candidate that is read leaves one reading less to go
  induction found generalizing n with
  | nil => simp
  | cons decl found ih =>
    cases n with
    | zero => simp [List.count_eq_zero]
    | succ n =>
      rw [List.mapIdx_cons, List.count_cons, List.countP_cons]
      cases hq : q decl with
      | false => simpa [hq] using ih (n + 1)
      | true => simpa [hq] using ih n

/-- Of the candidates in their order, whether the arguments of each are read. -/
def readingsOf (settings : Settings) (host : Declarations δ α ε σ) : List Bool :=
  (candidates host settings.markerShortName).map
    (readsArguments host (host.symbolNamed? settings.marker))

theorem count_readingsOf :
    (readingsOf settings host).count true =
      (runPass settings host (host.symbolNamed? settings.marker) .never).reads := by
  rw [readingsOf, count_true_map, runPass_never]

/-- Candidates that come after the `n`-th reading are not read. -/
theorem reads_duringRead (n : Nat) :
    (runPass settings host (host.symbolNamed? settings.marker)
        (.duringRead (readingsOf settings host) n)).reads =
      min n (runPass settings host (host.symbolNamed? settings.marker) .never).reads := by
  have hcount := count_mapIdx_duringRead
    (readsArguments host (host.symbolNamed? settings.marker))
    (candidates host settings.markerShortName) n
  have hnever := readsOf_never host (host.symbolNamed? settings.marker)
    (candidates host settings.markerShortName)
  unfold runPass
  simp only
  split
  · exact (Nat.min_zero n).symm
  split
  · exact (Nat.min_zero n).symm
  · simp only [Cancellation.duringRead, Cancellation.never, Bool.false_eq_true, if_false]
    rw [← Cancellation.never, hnever, ← hcount, readsOf_eq_count]
    rfl

/-- When candidates are taken in their order, the `n`-th reading cancels the pass if it is made, and
    it is the last one. -/
theorem generate_duringRead (n : Nat) (sink : MemorySink) :
    ((generate settings host (.duringRead (readingsOf settings host) n) sink).2 =
          .error .cancelled ↔
        n ≤ (runPass settings host (host.symbolNamed? settings.marker) .never).reads) ∧
      (n ≤ (runPass settings host (host.symbolNamed? settings.marker) .never).reads →
        (runPass settings host (host.symbolNamed? settings.marker)
          (.duringRead (readingsOf settings host) n)).reads = n) := by
  have hlasting := Cancellation.lasting_duringRead (readingsOf settings host) n
  refine ⟨?_, fun hread => by rw [reads_duringRead, Nat.min_eq_left hread]⟩
  rw [generate_memory_snd]
  by_cases hread : n ≤ (runPass settings host (host.symbolNamed? settings.marker) .never).reads
  · refine iff_of_true (preparePass_of_seen settings host hlasting ?_) hread
    simpa only [Cancellation.duringRead, count_readingsOf, decide_eq_true_eq] using hread
  · refine iff_of_false ?_ hread
    rw [preparePass_of_unseen settings host hlasting,
      ← generate_memory_snd settings host .never sink]
    · exact generate_never_ne_cancelled settings host sink
    · simpa only [Cancellation.duringRead, count_readingsOf, decide_eq_false_iff_not] using hread

end DuringRead

/-! ## All or nothing -/

/-- A pass to memory that is cancelled at any moment, with its candidates taken in any order, ends
    as cancelled and leaves the sink as it was, or does and returns what it would have done and
    returned anyway. It always comes to one of these ends. With one worker, cancelled while it reads
    arguments for the `n`-th time, the pass ends as cancelled exactly when it reads so often
    otherwise, and then it has read just so often. So does a pass that takes its candidates in their
    order and looks at the cancellation before each of them. -/
theorem generate_all_or_nothing (settings : Settings) (host : Declarations δ α ε σ)
    (sink : MemorySink) :
    (∀ seen : Cancellation, seen.Lasting →
      generate settings host seen sink = (sink, .error .cancelled) ∨
        generate settings host seen sink = generate settings host .never sink) ∧
    (∀ regime m result, Steps regime settings host (Moment.first sink) m →
      m.stage = .ended result →
      (m.sink, result) = (sink, .error .cancelled) ∨
        (m.sink, result) = generate settings host .never sink) ∧
    (∀ regime : Regime, 0 < regime.workers → ∀ m,
      Steps regime settings host (Moment.first sink) m →
      ∃ m' result, Steps regime settings host m m' ∧ m'.stage = .ended result) ∧
    (∀ n, 0 < n → ∀ m result, Steps (Regime.solo n) settings host (Moment.first sink) m →
      m.stage = .ended result →
      (result = .error .cancelled ↔
          n ≤ (runPass settings host (host.symbolNamed? settings.marker) .never).reads) ∧
        (result = .error .cancelled → m.reads = n)) ∧
    (∀ n,
      ((generate settings host (.duringRead (readingsOf settings host) n) sink).2 =
            .error .cancelled ↔
          n ≤ (runPass settings host (host.symbolNamed? settings.marker) .never).reads) ∧
        (n ≤ (runPass settings host (host.symbolNamed? settings.marker) .never).reads →
          (runPass settings host (host.symbolNamed? settings.marker)
            (.duringRead (readingsOf settings host) n)).reads = n)) := by
  refine ⟨?_, ?_, ?_, ?_, ?_⟩
  · intro seen lasting
    exact generate_lasting settings host lasting sink
  · intro regime m result steps ended
    obtain ⟨seen, hlasting, -, -, hgenerate⟩ := steps.ends_as_generate ended
    rw [← hgenerate]
    exact generate_lasting settings host hlasting sink
  · intro regime workers m _
    exact exists_ended workers m
  · intro n hn m result steps ended
    exact steps.ends_solo hn ended
  · intro n
    exact generate_duringRead n sink

end JobRoster
