import JobRoster.Proofs.Job.Complaints
import JobRoster.Proofs.Pass.Uncancelled

/-!
# The precedence of faults

Extraction passes over a declaration that the marker does not mean, whatever else is wrong with it.
Of any other it reports what the first check complains about, and comes to a job if no check does.
The arguments of one attribute are read at most, and once.
-/

namespace JobRoster

variable {δ α ε σ : Type}

/-! ## Complaints about a declaration -/

/-- What each check says of a declaration that the marker means. The arguments are those of the
    first attribute that denotes it. -/
inductive Complaint (host : Declarations δ α ε σ) (symbol : σ) (decl : δ) : Check → Fault → Prop
  | repeated (htwice : 2 ≤ (markersOf host symbol decl).length) :
      Complaint host symbol decl .marker .duplicateMarker
  | malformed {attr : α} {rest : List α} {reason : String}
      (hattr : markersOf host symbol decl = attr :: rest)
      (hreason : host.arguments attr = .error reason) :
      Complaint host symbol decl .reading (.malformedArguments reason)
  | arguments {attr : α} {rest : List α} {arguments : List (Argument ε)} {check : Check}
      {fault : Fault} (hattr : markersOf host symbol decl = attr :: rest)
      (harguments : host.arguments attr = .ok arguments)
      (hfault : ArgumentComplaint (constantText host) arguments check fault) :
      Complaint host symbol decl check fault
  | unreachable (hpath : host.typePath? decl = none) :
      Complaint host symbol decl .naming .unreachable

/-! ## Reading arguments -/

theorem jobOfArguments_ok (host : Declarations δ α ε σ) (decl : δ) (arguments : List (Argument ε)) :
    jobOfArguments host decl (.ok arguments) =
      (normalizeArguments (host.identity decl) (host.location decl) arguments
        (constantText host)).result.bind fun job =>
          match host.typePath? decl with
          | some path => .ok (job.withTypePath path)
          | none => .error .unreachable := by
  rw [jobOfArguments_eq]
  unfold normalizeArguments
  cases ArgumentShape.classify arguments with
  | error fault => rfl
  | ok shape => rfl

/-- No arguments but those that are read make a difference to extraction. -/
theorem extract_withArguments {host : Declarations δ α ε σ} {marker : Option σ} {decl : δ}
    {arguments : α → Except String (List (Argument ε))}
    (h : ∀ attr ∈ attributesRead host marker decl, arguments attr = host.arguments attr) :
    extract { host with arguments } marker decl = extract host marker decl := by
  have hmarking : marking { host with arguments } marker decl = marking host marker decl := rfl
  rw [attributesRead_eq] at h
  rw [extract_eq, extract_eq, hmarking]
  cases hmarked : marking host marker decl with
  | unmarked => rfl
  | repeated => rfl
  | marked attr =>
    rw [hmarked] at h
    simp only [h attr List.mem_cons_self]
    rfl

/-! ## Deciding -/

variable {host : Declarations δ α ε σ} {marker : Option σ} {symbol : σ} {decl : δ}

/-- A declaration is passed over for what the marker means, and for nothing else. -/
theorem marking_eq_unmarked_iff :
    marking host marker decl = .unmarked ↔
      marker = none ∨
      (∀ symbol, marker = some symbol → ∀ attr ∈ host.attributes decl,
        host.denotes symbol attr = false) ∨
      host.kind decl = .trait ∨ 0 < host.generics decl := by
  have hkind : ∀ kind : TypeKind, kind.isConcrete = true ↔ kind ≠ .trait := by
    intro kind
    cases kind <;> decide
  constructor
  · intro h
    by_contra hmeant
    simp only [not_or, not_forall, Bool.not_eq_false, Nat.not_lt, Nat.le_zero] at hmeant
    obtain ⟨-, ⟨symbol, hmarker, attr, hattr, hdenotes⟩, hconcrete, hplain⟩ := hmeant
    exact marking_ne_unmarked_iff.2
      ⟨(hkind _).2 hconcrete, hplain, attr, hattr, symbol, hmarker, hdenotes⟩ h
  · intro h
    by_contra hmeant
    obtain ⟨hconcrete, hplain, attr, hattr, symbol, hmarker, hdenotes⟩ :=
      marking_ne_unmarked_iff.1 hmeant
    obtain hnone | hother | htrait | hgeneric := h
    · rw [hmarker] at hnone
      cases hnone
    · exact Bool.false_ne_true ((hother symbol hmarker attr hattr).symm.trans hdenotes)
    · exact (hkind _).1 hconcrete htrait
    · omega

/-- A declaration that the marker means has one attribute that denotes it, or several. -/
theorem marking_cases (h : marking host (some symbol) decl ≠ .unmarked) :
    (2 ≤ (markersOf host symbol decl).length ∧ marking host (some symbol) decl = .repeated) ∨
      ∃ attr, markersOf host symbol decl = [attr] ∧
        marking host (some symbol) decl = .marked attr := by
  unfold marking at h ⊢
  dsimp only at h ⊢
  split at h
  · exact absurd rfl h
  next hkind =>
    rw [if_neg hkind]
    cases hmarkers : markersOf host symbol decl with
    | nil => simp [hmarkers] at h
    | cons attr rest =>
      cases rest with
      | nil => exact .inr ⟨attr, rfl, rfl⟩
      | cons second rest => exact .inl ⟨by simp, rfl⟩

/-- Arguments that cannot be read are all that is reported. -/
theorem FirstFault.eq_malformed {attr : α} {reason : String} {fault : Fault}
    (hattr : markersOf host symbol decl = [attr]) (hread : host.arguments attr = .error reason)
    (h : FirstFault (Complaint host symbol decl) fault) : fault = .malformedArguments reason := by
  obtain ⟨check, hcomplaint, hquiet⟩ := h
  have hmalformed : Complaint host symbol decl .reading (.malformedArguments reason) :=
    .malformed hattr hread
  cases hcomplaint with
  | repeated htwice => simp [hattr] at htwice
  | malformed hattr' hreason =>
    obtain ⟨rfl, -⟩ := List.cons.inj (hattr.symm.trans hattr')
    rw [Except.error.inj (hread.symm.trans hreason)]
  | arguments _ _ hfault => exact absurd hmalformed (hquiet .reading _ hfault.place_bounds.1)
  | unreachable => exact absurd hmalformed (hquiet .reading _ (by decide))

/-- Arguments that can be read are normalized, and only then is the type looked for. -/
theorem FirstFault.jobOfArguments {attr : α} {arguments : List (Argument ε)} {fault : Fault}
    (hattr : markersOf host symbol decl = [attr]) (hread : host.arguments attr = .ok arguments)
    (h : FirstFault (Complaint host symbol decl) fault) :
    jobOfArguments host decl (.ok arguments) = .error fault := by
  obtain ⟨check, hcomplaint, hquiet⟩ := h
  rw [jobOfArguments_ok]
  cases hcomplaint with
  | repeated htwice => simp [hattr] at htwice
  | malformed hattr' hreason =>
    obtain ⟨rfl, -⟩ := List.cons.inj (hattr.symm.trans hattr')
    cases hread.symm.trans hreason
  | arguments hattr' harguments hfault =>
    obtain ⟨rfl, -⟩ := List.cons.inj (hattr.symm.trans hattr')
    obtain rfl := Except.ok.inj (hread.symm.trans harguments)
    have hfirst : FirstFault (ArgumentComplaint (constantText host) arguments) fault :=
      ⟨check, hfault, fun earlier other hlt hother =>
        hquiet earlier other hlt (.arguments hattr hread hother)⟩
    rw [hfirst.normalizeArguments]
    rfl
  | unreachable hpath =>
    have hsound : ∀ earlier other,
        ¬ ArgumentComplaint (constantText host) arguments earlier other := fun _ _ hother =>
      hquiet _ _ hother.place_bounds.2 (.arguments hattr hread hother)
    obtain ⟨job, hjob⟩ := exists_job_of_quiet hsound (host.identity decl) (host.location decl)
    rw [hjob, hpath]
    rfl

/-- Of the one marker of a declaration, a job is made as the first check to complain says. -/
theorem FirstFault.jobOfMarker {attr : α} {fault : Fault}
    (hattr : markersOf host symbol decl = [attr])
    (h : FirstFault (Complaint host symbol decl) fault) :
    JobRoster.jobOfArguments host decl (host.arguments attr) = .error fault := by
  cases hread : host.arguments attr with
  | error reason =>
    rw [h.eq_malformed hattr hread]
    rfl
  | ok arguments => exact h.jobOfArguments hattr hread

/-- Extraction fails as the first check to complain says. -/
theorem FirstFault.extract {fault : Fault} (h : FirstFault (Complaint host symbol decl) fault)
    (hmeant : marking host (some symbol) decl ≠ .unmarked) :
    extract host (some symbol) decl = .error ⟨host.identity decl, host.location decl, fault⟩ := by
  rw [extract_eq]
  obtain ⟨htwice, hmarking⟩ | ⟨attr, hattr, hmarking⟩ := marking_cases hmeant
  · obtain ⟨check, hcomplaint, hquiet⟩ := h
    have hrepeated : ¬ Check.marker.place < check.place := fun hlt =>
      hquiet .marker _ hlt (.repeated htwice)
    rw [hmarking]
    cases hcomplaint with
    | repeated => rfl
    | malformed => exact absurd (by decide) hrepeated
    | unreachable => exact absurd (by decide) hrepeated
    | arguments _ _ hfault =>
      exact absurd (Nat.zero_lt_of_lt hfault.place_bounds.1) hrepeated
  · simp only [hmarking, h.jobOfMarker hattr]
    rfl

/-- A declaration that no check complains about comes to a job. -/
theorem exists_extract_of_quiet (h : ∀ check fault, ¬ Complaint host symbol decl check fault)
    (hmeant : marking host (some symbol) decl ≠ .unmarked) :
    ∃ job, extract host (some symbol) decl = .ok (some job) := by
  rw [extract_eq]
  obtain ⟨htwice, -⟩ | ⟨attr, hattr, hmarking⟩ := marking_cases hmeant
  · exact absurd (.repeated htwice) (h .marker .duplicateMarker)
  cases hread : host.arguments attr with
  | error reason => exact absurd (.malformed hattr hread) (h .reading _)
  | ok arguments =>
    have hsound : ∀ check fault, ¬ ArgumentComplaint (constantText host) arguments check fault :=
      fun check fault hfault => h check fault (.arguments hattr hread hfault)
    obtain ⟨job, hjob⟩ := exists_job_of_quiet hsound (host.identity decl) (host.location decl)
    cases hpath : host.typePath? decl with
    | none => exact absurd (.unreachable hpath) (h .naming .unreachable)
    | some path =>
      refine ⟨job.withTypePath path, ?_⟩
      simp only [hmarking, hread, jobOfArguments_ok, hjob, Except.bind, hpath]
      rfl

theorem DescribedBy.withTypePath {tells : Field → String → Prop} {declared : String}
    {place : Location} {job : Job} (h : DescribedBy tells declared place job) (path : String) :
    DescribedBy tells declared place (job.withTypePath path) :=
  ⟨h.identity, h.location, h.cron, h.cronNotBlank, h.id, h.queue, h.timeZone⟩

/-- What is reported of a declaration that the marker means is the first complaint about it. -/
theorem extract_eq_error_iff (hmeant : marking host (some symbol) decl ≠ .unmarked)
    {diagnostic : Diagnostic} :
    extract host (some symbol) decl = .error diagnostic ↔
      diagnostic.declaration = host.identity decl ∧ diagnostic.location = host.location decl ∧
        FirstFault (Complaint host symbol decl) diagnostic.fault := by
  constructor
  · intro h
    by_cases hquiet : ∀ check fault, ¬ Complaint host symbol decl check fault
    · obtain ⟨job, hjob⟩ := exists_extract_of_quiet hquiet hmeant
      rw [hjob] at h
      cases h
    · simp only [not_forall, not_not] at hquiet
      obtain ⟨check, fault, hcomplaint⟩ := hquiet
      obtain ⟨first, hfirst⟩ := exists_firstFault hcomplaint
      obtain rfl := Except.error.inj ((hfirst.extract hmeant).symm.trans h)
      exact ⟨rfl, rfl, hfirst⟩
  · obtain ⟨declaration, location, fault⟩ := diagnostic
    rintro ⟨rfl, rfl, hfirst⟩
    exact hfirst.extract hmeant

/-- A job says what the arguments of the one marker tell of its fields. -/
theorem describedBy_of_extract {job : Job} (h : extract host marker decl = .ok (some job)) :
    ∃ symbol attr arguments, marker = some symbol ∧ markersOf host symbol decl = [attr] ∧
      host.arguments attr = .ok arguments ∧
      DescribedBy (Tells arguments (constantText host)) (host.identity decl) (host.location decl)
        job ∧
      host.typePath? decl = some job.typePath := by
  have hmeant : marking host marker decl ≠ .unmarked := fun hmarking => by
    rw [extract_of_unmarked hmarking] at h
    cases h
  cases marker with
  | none => exact absurd (marking_none host decl) hmeant
  | some symbol =>
    rw [extract_eq] at h
    obtain ⟨-, hmarking⟩ | ⟨attr, hattr, hmarking⟩ := marking_cases hmeant
    · rw [hmarking] at h
      cases h
    simp only [hmarking] at h
    cases hread : host.arguments attr with
    | error reason =>
      rw [hread] at h
      cases h
    | ok arguments =>
      refine ⟨symbol, attr, arguments, rfl, hattr, hread, ?_⟩
      rw [hread, jobOfArguments_ok] at h
      cases hresult : (normalizeArguments (host.identity decl) (host.location decl) arguments
          (constantText host)).result with
      | error fault =>
        rw [hresult] at h
        cases h
      | ok found =>
        have hfound := describedBy_of_normalizeArguments hresult
        cases hpath : host.typePath? decl with
        | none =>
          rw [hresult, hpath] at h
          cases h
        | some path =>
          rw [hresult, hpath] at h
          obtain rfl : found.withTypePath path = job := Option.some.inj (Except.ok.inj h)
          exact ⟨hfound.withTypePath path, rfl⟩

/-! ## The precedence -/

theorem constantText_eq_ok_iff {field : Field} {value : ε} {text : String} :
    constantText host field value = .ok text ↔ host.constant? value = some (.str text) := by
  unfold constantText
  cases host.constant? value with
  | none => simp
  | some constant => cases constant <;> simp

theorem constantText_eq_error_iff {field : Field} {value : ε} {fault : Fault} :
    constantText host field value = .error fault ↔
      (host.constant? value = none ∧ fault = .nonConstant field.name (host.display value)) ∨
        ∃ kind text, host.constant? value = some (.other kind text) ∧
          fault = .notAString field.name kind text := by
  unfold constantText
  cases host.constant? value with
  | none => simp [eq_comm]
  | some constant => cases constant <;> simp [eq_comm]

/-- Extraction passes over a declaration, or reports the first complaint about it, or comes to the
    job that its one marker describes. -/
theorem extract_by_precedence (host : Declarations δ α ε σ) (marker : Option σ) (decl : δ) :
    -- what the marker does not mean is passed over
    (extract host marker decl = .ok none ↔
      marker = none ∨
      (∀ symbol, marker = some symbol → ∀ attr ∈ host.attributes decl,
        host.denotes symbol attr = false) ∨
      host.kind decl = .trait ∨ 0 < host.generics decl) ∧
    -- of anything else the first complaint is reported
    (∀ diagnostic, extract host marker decl = .error diagnostic ↔
      extract host marker decl ≠ .ok none ∧ diagnostic.declaration = host.identity decl ∧
        diagnostic.location = host.location decl ∧
        ∃ symbol, marker = some symbol ∧
          FirstFault (Complaint host symbol decl) diagnostic.fault) ∧
    -- a value is complained about for the constant that it is
    (∀ field value,
      (∀ text, constantText host field value = .ok text ↔
        host.constant? value = some (.str text)) ∧
      ∀ fault, constantText host field value = .error fault ↔
        (host.constant? value = none ∧ fault = .nonConstant field.name (host.display value)) ∨
          ∃ kind text, host.constant? value = some (.other kind text) ∧
            fault = .notAString field.name kind text) ∧
    -- without a complaint there is a job
    ((∃ job, extract host marker decl = .ok (some job)) ↔
      extract host marker decl ≠ .ok none ∧
        ∀ symbol, marker = some symbol → ∀ check fault, ¬ Complaint host symbol decl check fault) ∧
    (∀ job, extract host marker decl = .ok (some job) →
      ∃ symbol attr arguments, marker = some symbol ∧ markersOf host symbol decl = [attr] ∧
        host.arguments attr = .ok arguments ∧
        DescribedBy (Tells arguments (constantText host)) (host.identity decl) (host.location decl)
          job ∧
        host.typePath? decl = some job.typePath) ∧
    -- the arguments of one attribute are read at most, once, and no others matter
    ∃ noted : List α,
      (extractReading host (readNoting host) marker decl).run [] =
          (extract host marker decl, noted) ∧
        noted.length ≤ 1 ∧ noted.length = (readsArguments host marker decl).toNat ∧
        ∀ arguments : α → Except String (List (Argument ε)),
          (∀ attr ∈ noted, arguments attr = host.arguments attr) →
            extract { host with arguments } marker decl = extract host marker decl := by
  have hmeant : extract host marker decl ≠ .ok none ↔ marking host marker decl ≠ .unmarked :=
    not_congr extract_eq_none_iff
  refine ⟨extract_eq_none_iff.trans marking_eq_unmarked_iff, fun diagnostic => ?_,
    fun field value => ⟨fun text => constantText_eq_ok_iff, fun fault => constantText_eq_error_iff⟩,
    ?_, fun job => describedBy_of_extract, ?_⟩
  · rw [hmeant]
    constructor
    · intro h
      have hmarked : marking host marker decl ≠ .unmarked := hmeant.1 (by simp [h])
      cases marker with
      | none => exact absurd rfl hmarked
      | some symbol =>
        obtain ⟨hdeclaration, hlocation, hfirst⟩ := (extract_eq_error_iff hmarked).1 h
        exact ⟨hmarked, hdeclaration, hlocation, symbol, rfl, hfirst⟩
    · rintro ⟨hmarked, hdeclaration, hlocation, symbol, rfl, hfirst⟩
      exact (extract_eq_error_iff hmarked).2 ⟨hdeclaration, hlocation, hfirst⟩
  · rw [hmeant]
    constructor
    · rintro ⟨job, hjob⟩
      have hmarked : marking host marker decl ≠ .unmarked := hmeant.1 (by simp [hjob])
      refine ⟨hmarked, ?_⟩
      rintro symbol rfl check fault hcomplaint
      obtain ⟨first, hfirst⟩ := exists_firstFault hcomplaint
      rw [hfirst.extract hmarked] at hjob
      cases hjob
    · rintro ⟨hmarked, hquiet⟩
      cases marker with
      | none => exact absurd rfl hmarked
      | some symbol => exact exists_extract_of_quiet (hquiet symbol rfl) hmarked
  · have hlength := length_attributesRead host marker decl
    exact ⟨_, run_extractReading_noting host marker decl, hlength ▸ Bool.toNat_le _, hlength,
      fun arguments hagree => extract_withArguments hagree⟩

end JobRoster
