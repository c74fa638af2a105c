import JobRoster.Proofs.Job.Extraction

/-!
# Passes that are not cancelled

A pass that is never cancelled extracts every candidate. Its early ends, where there are no
candidates or the marker is unknown, are no exceptions: extraction would come to nothing there, too.
-/

namespace JobRoster

variable {δ α ε σ : Type}

/-! ## Declarations that are not marked -/

@[simp] theorem marking_none (host : Declarations δ α ε σ) (decl : δ) :
    marking host none decl = .unmarked := rfl

/-- What it takes to be marked, once or repeatedly. -/
theorem marking_ne_unmarked_iff {host : Declarations δ α ε σ} {marker : Option σ} {decl : δ} :
    marking host marker decl ≠ .unmarked ↔
      (host.kind decl).isConcrete = true ∧ host.generics decl = 0 ∧
        ∃ attr ∈ host.attributes decl, ∃ symbol, marker = some symbol ∧
          host.denotes symbol attr = true := by
  cases marker with
  | none => simp
  | some symbol =>
    have hmarkers : markersOf host symbol decl = [] ↔
        ∀ attr ∈ host.attributes decl, host.denotes symbol attr = false := by
      simp [markersOf]
    simp only [marking]
    split
    case isTrue hkind =>
      refine iff_of_false (by simp) ?_
      rintro ⟨hconcrete, hplain, -⟩
      simp [hconcrete, hplain] at hkind
    case isFalse hkind =>
      have hkind : (host.kind decl).isConcrete = true ∧ host.generics decl = 0 := by
        simpa using hkind
      -- one marker or several make no difference here: either way there is one
      split
      case h_1 hnil => simpa [hkind] using hmarkers.mp hnil
      case h_2 attr hone =>
        have hsome : markersOf host symbol decl ≠ [] := by simp [hone]
        simpa [hkind, hmarkers] using hsome
      case h_3 hmore =>
        have hsome : markersOf host symbol decl ≠ [] := by simp [hmore]
        simpa [hkind, hmarkers] using hsome

theorem extract_of_unmarked {host : Declarations δ α ε σ} {marker : Option σ} {decl : δ}
    (h : marking host marker decl = .unmarked) : extract host marker decl = .ok none := by
  rw [extract_eq, h]

/-- A declaration on which something denotes the marker is never passed over. -/
theorem extract_eq_none_iff {host : Declarations δ α ε σ} {marker : Option σ} {decl : δ} :
    extract host marker decl = .ok none ↔ marking host marker decl = .unmarked := by
  refine ⟨fun h => ?_, extract_of_unmarked⟩
  rw [extract_eq] at h
  cases hmarking : marking host marker decl with
  | unmarked => rfl
  | repeated => simp [hmarking] at h
  | marked attr =>
    simp only [hmarking] at h
    cases hjob : jobOfArguments host decl (host.arguments attr) with
    | error fault => rw [hjob] at h; cases h
    | ok job => rw [hjob] at h; cases h

theorem attributesRead_of_unmarked {host : Declarations δ α ε σ} {marker : Option σ} {decl : δ}
    (h : marking host marker decl = .unmarked) : attributesRead host marker decl = [] := by
  rw [attributesRead_eq, h]

/-! ## A whole pass -/

/-- What extracting all candidates comes to. -/
def resultsOf (settings : Settings) (host : Declarations δ α ε σ) (marker : Option σ) :
    List Extracted :=
  (candidates host settings.markerShortName).map (extract host marker)

/-- The counters of a pass that came to some results. -/
def Stats.ofResults (scanned : Nat) (results : List Extracted) : Stats where
  scanned
  candidates := results.length
  records := (Extracted.jobs results).length
  skipped :=
    results.length - (Extracted.jobs results).length - (Extracted.diagnostics results).length
  diagnostics := (Extracted.diagnostics results).length

theorem statsOf_eq (scanned : Nat) (visits : List Visit) :
    statsOf scanned visits = Stats.ofResults scanned (visits.map Visit.extracted) := by
  simp [statsOf, Stats.ofResults, Extracted.jobs, Extracted.diagnostics]

theorem map_extracted_visitAll_never (host : Declarations δ α ε σ) (marker : Option σ)
    (found : List δ) :
    (visitAll host marker .never found).map Visit.extracted = found.map (extract host marker) := by
  apply List.ext_getElem
  · simp [visitAll]
  · intro i h h'
    simp [visitAll, Cancellation.never, Visit.extracted]

theorem count_true_map {α : Type} (q : α → Bool) (xs : List α) :
    (xs.map q).count true = xs.countP q := by
  rw [List.count, List.countP_map]
  congr 1
  funext x
  simp

/-- Of lists with one element at most, as many elements are put together as lists have one. -/
theorem length_flatten_of_le_one {α : Type} {xss : List (List α)}
    (h : ∀ xs ∈ xss, xs.length ≤ 1) : xss.flatten.length = xss.countP (!·.isEmpty) := by
  induction xss with
  | nil => rfl
  | cons xs xss ih =>
    obtain ⟨hxs, hxss⟩ := List.forall_mem_cons.1 h
    rw [List.flatten_cons, List.length_append, ih hxss, List.countP_cons, Nat.add_comm]
    match xs, hxs with
    | [], _ => rfl
    | [_], _ => rfl

/-- What is read are the arguments of candidates that are not passed over. -/
theorem readsOf_eq_count (host : Declarations δ α ε σ) (marker : Option σ) (cancel : Cancellation)
    (found : List δ) :
    readsOf host marker cancel found =
      (found.mapIdx fun i decl =>
        !cancel.atCandidate i && readsArguments host marker decl).count true := by
  let read := found.mapIdx fun i decl =>
    if cancel.atCandidate i then [] else attributesRead host marker decl
  have hshort : ∀ attrs ∈ read, attrs.length ≤ 1 := by
    intro attrs hattrs
    obtain ⟨i, hi, rfl⟩ := List.mem_mapIdx.1 hattrs
    cases cancel.atCandidate i with
    | true => exact Nat.zero_le 1
    | false => exact length_attributesRead host marker found[i] ▸ Bool.toNat_le _
  have hread : read.map (!·.isEmpty) = found.mapIdx fun i decl =>
      !cancel.atCandidate i && readsArguments host marker decl := by
    apply List.ext_getElem
    · simp [read]
    · intro i hi _
      simp only [read, List.getElem_map, List.getElem_mapIdx]
      cases cancel.atCandidate i <;> rfl
  calc readsOf host marker cancel found
      = read.countP (!·.isEmpty) := length_flatten_of_le_one hshort
    _ = (read.map (!·.isEmpty)).count true := (count_true_map _ read).symm
    _ = _ := by rw [hread]

theorem readsOf_never (host : Declarations δ α ε σ) (marker : Option σ) (found : List δ) :
    readsOf host marker .never found = found.countP (readsArguments host marker) := by
  have h : (found.mapIdx fun _ decl => readsArguments host marker decl) =
      found.map (readsArguments host marker) := by
    apply List.ext_getElem <;> simp
  simp only [readsOf_eq_count, Cancellation.never, Bool.not_false, Bool.true_and, h, count_true_map]

/-- A pass that is never cancelled makes its roster of all candidates. -/
theorem runPass_never (settings : Settings) (host : Declarations δ α ε σ) (marker : Option σ) :
    runPass settings host marker .never =
      { stats := Stats.ofResults host.decls.length (resultsOf settings host marker)
        reads := (candidates host settings.markerShortName).countP (readsArguments host marker)
        result := roster (resultsOf settings host marker) } := by
  unfold runPass resultsOf
  simp only
  split
  case isTrue hempty =>
    rw [List.isEmpty_iff.mp hempty, List.map_nil, roster_of_barren rfl rfl]
    rfl
  split
  case isTrue hfound hnone =>
    -- a marker that is unknown leaves every candidate unmarked
    obtain rfl := Option.isNone_iff_eq_none.mp hnone
    have hreads :
        (candidates host settings.markerShortName).countP (readsArguments host none) = 0 :=
      List.countP_eq_zero.mpr fun decl _ => by
        simp [readsArguments, attributesRead_of_unmarked (marking_none host decl)]
    obtain ⟨hjobs, hdiagnostics⟩ := Extracted.eq_nil_of_none
      ((candidates host settings.markerShortName).map (extract host none)) <| by
        intro result hresult
        obtain ⟨decl, -, rfl⟩ := List.mem_map.mp hresult
        exact extract_of_unmarked rfl
    rw [hreads, roster_of_barren hjobs hdiagnostics]
    simp only [Stats.ofResults, hjobs, hdiagnostics, List.length_map, List.length_nil, Nat.sub_zero]
  case isFalse =>
    simp only [Cancellation.never, Bool.false_eq_true, if_false]
    rw [← Cancellation.never, statsOf_eq, map_extracted_visitAll_never, readsOf_never]

theorem unitOf?_eq_none_iff {settings : Settings} {moduleIdentity : String} {jobs : List Job} :
    unitOf? settings moduleIdentity jobs = none ↔ jobs = [] := by
  cases jobs <;> simp [unitOf?]

theorem unitOf?_eq_some {settings : Settings} {moduleIdentity : String} {jobs : List Job}
    {u : SourceUnit} (h : unitOf? settings moduleIdentity jobs = some u) :
    u = render settings moduleIdentity jobs := by
  cases jobs with
  | nil => simp [unitOf?] at h
  | cons job jobs => exact (Option.some.inj h).symm

/-- The outcome of a pass that comes to some jobs. -/
def outcomeOf (settings : Settings) (host : Declarations δ α ε σ) (stats : Stats)
    (jobs : List Job) : Outcome :=
  ⟨unitOf? settings host.moduleIdentity jobs, jobs, stats⟩

theorem preparePass_of_error {settings : Settings} {host : Declarations δ α ε σ}
    {cancel : Cancellation} {failure : Failure}
    (h : (runPass settings host (host.symbolNamed? settings.marker) cancel).result =
      .error failure) : preparePass settings host cancel = .error failure := by
  unfold preparePass
  simp only [h]
  rfl

theorem preparePass_of_ok {settings : Settings} {host : Declarations δ α ε σ}
    {cancel : Cancellation} {jobs : List Job}
    (h : (runPass settings host (host.symbolNamed? settings.marker) cancel).result = .ok jobs) :
    preparePass settings host cancel =
      if cancel.atPublish then .error .cancelled
      else .ok (outcomeOf settings host
        (runPass settings host (host.symbolNamed? settings.marker) cancel).stats jobs) := by
  unfold preparePass
  simp only [h]
  cases cancel.atPublish <;> rfl

theorem generate_of_error {S : Type} [Sink S] {settings : Settings} {host : Declarations δ α ε σ}
    {cancel : Cancellation} {failure : Failure}
    (h : preparePass settings host cancel = .error failure) (sink : S) :
    generate settings host cancel sink = (sink, .error failure) := by
  unfold generate
  rw [h]

theorem preparePass_never (settings : Settings) (host : Declarations δ α ε σ) :
    preparePass settings host .never =
      (roster (resultsOf settings host (host.symbolNamed? settings.marker))).map
        (outcomeOf settings host (Stats.ofResults host.decls.length
          (resultsOf settings host (host.symbolNamed? settings.marker)))) := by
  cases hresult : roster (resultsOf settings host (host.symbolNamed? settings.marker)) with
  | error failure =>
    refine preparePass_of_error ?_
    rw [runPass_never, hresult]
  | ok jobs =>
    have hrun : (runPass settings host (host.symbolNamed? settings.marker) .never).result =
        .ok jobs := by rw [runPass_never, hresult]
    rw [preparePass_of_ok hrun, runPass_never]
    rfl

/-- Publishing to memory never fails, so a pass ends as it was prepared. -/
theorem generate_memory_snd (settings : Settings) (host : Declarations δ α ε σ)
    (cancel : Cancellation) (sink : MemorySink) :
    (generate settings host cancel sink).2 = preparePass settings host cancel := by
  unfold generate
  cases preparePass settings host cancel with
  | error failure => rfl
  | ok outcome =>
    simp only
    cases publicationOf settings outcome.unit <;> rfl

end JobRoster
