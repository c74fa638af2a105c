import JobRoster.Pass.Run
import JobRoster.Proofs.Job.Roster

/-!
# What extraction reports

Extraction reads the arguments of the one attribute that denotes the marker, once, and of no other.
A job names its declaration, and its type by the path that the host gives for it. Faults of the
arguments come first; that a type cannot be named is the last thing that can go wrong.
-/

namespace JobRoster

/-! ## Faults of arguments -/

/-- Whether a fault is one of a marker's arguments, and not of the declaration it stands on. -/
def Fault.isOfArguments : Fault → Bool
  | duplicateMarker | unreachable => false
  | _ => true

section Arguments

variable {α : Type} {fault : Fault}

theorem isOfArguments_of_classify {arguments : List (Argument α)}
    (h : ArgumentShape.classify arguments = .error fault) : fault.isOfArguments = true := by
  unfold ArgumentShape.classify at h
  dsimp only at h
  split at h
  · cases h
  · split at h
    · cases h
    · exact Except.error.inj h ▸ rfl

theorem isOfArguments_of_assign {filled : List (Field × α)} {pairs : List (String × α)}
    (h : Fields.assign filled pairs = .error fault) : fault.isOfArguments = true := by
  fun_induction Fields.assign filled pairs with
  | case1 => cases h
  | case2 => exact Except.error.inj h ▸ rfl
  | case3 => exact Except.error.inj h ▸ rfl
  | case4 _ _ _ _ _ _ _ ih => exact ih h

theorem isOfArguments_of_ofShape {shape : ArgumentShape α} (h : Fields.ofShape shape = .error fault) :
    fault.isOfArguments = true := by
  unfold Fields.ofShape at h
  split at h
  · cases h
  · cases h
  · exact Except.error.inj h ▸ rfl
  next pairs =>
    cases hassign : Fields.assign [] pairs with
    | error early =>
      rw [hassign] at h
      exact Except.error.inj h ▸ isOfArguments_of_assign hassign
    | ok filled =>
      simp only [hassign, bind, Except.bind] at h
      split at h
      · cases h
      · exact Except.error.inj h ▸ rfl

theorem isOfArguments_of_evaluateFields {eval : Evaluator α}
    (heval : ∀ field value fault, eval field value = .error fault → fault.isOfArguments = true)
    {given : List (Field × α)} (h : (evaluateFields eval given).result = .error fault) :
    fault.isOfArguments = true := by
  induction given generalizing fault with
  | nil => cases h
  | cons pair given ih =>
    obtain ⟨field, value⟩ := pair
    unfold evaluateFields at h
    split at h
    next early hearly => exact Except.error.inj h ▸ heval field value early hearly
    next text _ =>
      cases hrest : (evaluateFields eval given).result with
      | error early =>
        simp only [hrest, Except.map] at h
        exact Except.error.inj h ▸ ih hrest
      | ok texts =>
        simp only [hrest, Except.map] at h
        cases h

/-- Normalizing ends with the first part of it that fails, or comes to a job of the declaration. -/
theorem normalize_cases (identity : String) (location : Location) (shape : ArgumentShape α)
    (eval : Evaluator α) :
    (∃ fault, Fields.ofShape shape = .error fault ∧
      normalize identity location shape eval = .error fault) ∨
    (∃ given fault, (evaluateFields eval given).result = .error fault ∧
      normalize identity location shape eval = .error fault) ∨
    normalize identity location shape eval = .error .emptyCron ∨
    ∃ job, job.identity = identity ∧ normalize identity location shape eval = .ok job := by
  unfold normalize normalizeTracing
  cases Fields.ofShape shape with
  | error fault => exact .inl ⟨fault, rfl, rfl⟩
  | ok fields =>
    refine .inr ?_
    dsimp only
    cases htexts : (evaluateFields eval fields.given).result with
    | error fault => exact .inl ⟨fields.given, fault, htexts, rfl⟩
    | ok texts =>
      refine .inr ?_
      rw [Except.bind, jobOfTexts]
      split
      next => exact .inl rfl
      next => exact .inr ⟨_, rfl, rfl⟩

theorem isOfArguments_of_normalize {identity : String} {location : Location}
    {shape : ArgumentShape α} {eval : Evaluator α}
    (heval : ∀ field value fault, eval field value = .error fault → fault.isOfArguments = true)
    (h : normalize identity location shape eval = .error fault) : fault.isOfArguments = true := by
  obtain ⟨early, hshape, hresult⟩ | ⟨given, early, hvalues, hresult⟩ | hresult | ⟨_, -, hresult⟩ :=
    normalize_cases identity location shape eval <;>
  rw [hresult] at h
  · exact Except.error.inj h ▸ isOfArguments_of_ofShape hshape
  · exact Except.error.inj h ▸ isOfArguments_of_evaluateFields heval hvalues
  · exact Except.error.inj h ▸ rfl
  · cases h

theorem identity_of_normalize {identity : String} {location : Location} {shape : ArgumentShape α}
    {eval : Evaluator α} {job : Job} (h : normalize identity location shape eval = .ok job) :
    job.identity = identity := by
  obtain ⟨_, -, hresult⟩ | ⟨_, _, -, hresult⟩ | hresult | ⟨found, hidentity, hresult⟩ :=
    normalize_cases identity location shape eval <;>
  rw [hresult] at h
  · cases h
  · cases h
  · cases h
  · exact Except.ok.inj h ▸ hidentity

end Arguments

/-! ## Reading arguments -/

section Reading

variable {δ α ε σ : Type} (host : Declarations δ α ε σ) (marker : Option σ) (decl : δ)

/-- Extraction goes by the marker, and where there is one by its arguments. -/
theorem extract_eq :
    extract host marker decl =
      match marking host marker decl with
      | .unmarked => .ok none
      | .repeated => .error ⟨host.identity decl, host.location decl, .duplicateMarker⟩
      | .marked attr =>
        ((jobOfArguments host decl (host.arguments attr)).mapError
          (⟨host.identity decl, host.location decl, ·⟩)).map some := by
  unfold extract extractReading
  cases marking host marker decl <;> rfl

/-- Nothing but the arguments of the one marker is read. -/
theorem attributesRead_eq :
    attributesRead host marker decl =
      match marking host marker decl with
      | .marked attr => [attr]
      | .unmarked | .repeated => [] := by
  unfold attributesRead extractReading
  cases marking host marker decl <;> rfl

/-- What is noted of the reading makes no difference to what comes of it. -/
theorem run_extractReading_noting :
    (extractReading host (readNoting host) marker decl).run [] =
      (extract host marker decl, attributesRead host marker decl) := by
  unfold attributesRead extract extractReading
  cases marking host marker decl <;> rfl

theorem length_attributesRead :
    (attributesRead host marker decl).length = (readsArguments host marker decl).toNat := by
  unfold readsArguments
  rw [attributesRead_eq]
  cases marking host marker decl <;> rfl

end Reading

/-! ## Jobs and their declarations -/

variable {δ α ε σ : Type} {host : Declarations δ α ε σ} {decl : δ}

theorem isOfArguments_of_constantText {field : Field} {e : ε} {fault : Fault}
    (h : constantText host field e = .error fault) : fault.isOfArguments = true := by
  unfold constantText at h
  split at h
  · cases h
  · exact Except.error.inj h ▸ rfl
  · exact Except.error.inj h ▸ rfl

/-- Arguments that can be read are normalized, and then the type is looked for. -/
theorem jobOfArguments_eq (host : Declarations δ α ε σ) (decl : δ) (arguments : List (Argument ε)) :
    jobOfArguments host decl (.ok arguments) =
      (ArgumentShape.classify arguments).bind fun shape =>
        (normalize (host.identity decl) (host.location decl) shape (constantText host)).bind
          fun job =>
            match host.typePath? decl with
            | some path => .ok (job.withTypePath path)
            | none => .error .unreachable := rfl

/-- Arguments come to a job, or to a fault of theirs, or the type cannot be named. -/
theorem jobOfArguments_cases (host : Declarations δ α ε σ) (decl : δ)
    (read : Except String (List (Argument ε))) :
    (∃ job, jobOfArguments host decl read = .ok job ∧ job.identity = host.identity decl ∧
      host.typePath? decl = some job.typePath) ∨
    (∃ fault, jobOfArguments host decl read = .error fault ∧ fault.isOfArguments = true) ∨
    (jobOfArguments host decl read = .error .unreachable ∧ host.typePath? decl = none) := by
  cases read with
  | error reason => exact .inr (.inl ⟨_, rfl, rfl⟩)
  | ok arguments =>
    rw [jobOfArguments_eq]
    cases hshape : ArgumentShape.classify arguments with
    | error fault => exact .inr (.inl ⟨fault, rfl, isOfArguments_of_classify hshape⟩)
    | ok shape =>
      rw [Except.bind]
      cases hjob : normalize (host.identity decl) (host.location decl) shape (constantText host) with
      | error fault =>
        have harguments : fault.isOfArguments = true :=
          isOfArguments_of_normalize (fun _ _ _ => isOfArguments_of_constantText) hjob
        exact .inr (.inl ⟨fault, rfl, harguments⟩)
      | ok job =>
        rw [Except.bind]
        cases hpath : host.typePath? decl with
        | none => exact .inr (.inr ⟨rfl, rfl⟩)
        | some path =>
          have hidentity : job.identity = host.identity decl := identity_of_normalize hjob
          exact .inl ⟨job.withTypePath path, rfl, hidentity, rfl⟩

variable {marker : Option σ}

theorem typePath_of_extract {job : Job} (h : extract host marker decl = .ok (some job)) :
    job.identity = host.identity decl ∧ host.typePath? decl = some job.typePath := by
  rw [extract_eq] at h
  split at h
  · cases h
  · cases h
  next attr _ =>
    obtain ⟨found, hfound, hresult⟩ | ⟨fault, hfault, -⟩ | ⟨hfault, -⟩ :=
      jobOfArguments_cases host decl (host.arguments attr)
    · rw [hfound] at h
      obtain rfl : found = job := by simpa [Except.mapError, Except.map] using h
      exact hresult
    · simp [hfault, Except.mapError, Except.map] at h
    · simp [hfault, Except.mapError, Except.map] at h

/-- That a type cannot be named is reported only where the host has no path for it. -/
theorem typePath?_eq_none_of_unreachable {diagnostic : Diagnostic}
    (h : extract host marker decl = .error diagnostic) (hfault : diagnostic.fault = .unreachable) :
    host.typePath? decl = none := by
  rw [extract_eq] at h
  split at h
  · cases h
  · obtain rfl := Except.error.inj h
    cases hfault
  next attr _ =>
    obtain ⟨found, hfound, -⟩ | ⟨fault, hjob, harguments⟩ | ⟨-, hnone⟩ :=
      jobOfArguments_cases host decl (host.arguments attr)
    · simp [hfound, Except.mapError, Except.map] at h
    · simp only [hjob, Except.mapError, Except.map] at h
      obtain rfl := Except.error.inj h
      obtain rfl : fault = .unreachable := hfault
      cases harguments
    · exact hnone

/-! ## Jobs of a pass -/

/-- A pass that succeeds has nothing to extract, or makes a roster of what its visits came to. -/
theorem result_of_runPass {settings : Settings} {cancel : Cancellation} {jobs : List Job}
    (h : (runPass settings host marker cancel).result = .ok jobs) :
    jobs = [] ∨ roster ((visitAll host marker cancel
      (candidates host settings.markerShortName)).map Visit.extracted) = .ok jobs := by
  unfold runPass at h
  dsimp only at h
  split at h
  · exact .inl (Except.ok.inj h).symm
  · split at h
    · exact .inl (Except.ok.inj h).symm
    · split at h
      · cases h
      · dsimp only at h
        split at h
        · cases h
        · exact .inr h

theorem exists_extract_of_visitAll {cancel : Cancellation} {found : List δ} {job : Job}
    (h : job ∈ Extracted.jobs ((visitAll host marker cancel found).map Visit.extracted)) :
    ∃ decl ∈ found, extract host marker decl = .ok (some job) := by
  rw [Extracted.jobs, List.mem_filterMap] at h
  obtain ⟨result, hresult, hjob⟩ := h
  obtain ⟨visit, hvisit, rfl⟩ := List.mem_map.1 hresult
  obtain ⟨index, hindex, rfl⟩ := List.mem_mapIdx.1 hvisit
  -- a candidate that is passed over comes to no job
  split at hjob
  · cases hjob
  · refine ⟨_, List.getElem_mem hindex, ?_⟩
    have hresult : Extracted.job? (extract host marker found[index]) = some job := hjob
    rcases hextract : extract host marker found[index] with diagnostic | _ | other
    · simp [hextract, Extracted.job?] at hresult
    · simp [hextract, Extracted.job?] at hresult
    · rw [hextract] at hresult
      rw [Option.some.inj hresult]

/-- The jobs of a pass are those of declarations of the host, whether or not it was cancelled. -/
theorem exists_extract_of_runPass {settings : Settings} {cancel : Cancellation} {jobs : List Job}
    (h : (runPass settings host marker cancel).result = .ok jobs) :
    ∀ job ∈ jobs, ∃ decl ∈ host.decls, extract host marker decl = .ok (some job) := by
  intro job hjob
  obtain rfl | hroster := result_of_runPass h
  · cases hjob
  · obtain ⟨-, -, rfl⟩ := roster_eq_ok_iff.1 hroster
    obtain ⟨decl, hdecl, hextract⟩ :=
      exists_extract_of_visitAll ((sortedJobs_perm _).mem_iff.1 hjob)
    exact ⟨decl, List.mem_of_mem_filter hdecl, hextract⟩

end JobRoster
