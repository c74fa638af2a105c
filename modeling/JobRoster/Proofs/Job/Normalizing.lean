import JobRoster.Proofs.Job.Fields

/-!
# Jobs of arguments

A marker's arguments are normalized to a job. What comes of them, and what is evaluated on the way,
depends on which field each argument fills. An ill-formed list is rejected with nothing evaluated.
The fields of any other are evaluated in a fixed order, up to the first that fails.
-/

namespace JobRoster

variable {α : Type}

/-! ## Evaluation -/

/-- The calls of the evaluator for some fields, up to the first that fails. -/
def callsFor (eval : Evaluator α) : List (Field × α) → List (Field × α)
  | [] => []
  | given :: rest =>
    match eval given.1 given.2 with
    | .error _ => [given]
    | .ok _ => given :: callsFor eval rest

/-- Each field that is given comes to a text. -/
def Texts (eval : Evaluator α) (given : List (Field × α)) (texts : List (Field × String)) : Prop :=
  List.Forall₂ (fun given text => text.1 = given.1 ∧ eval given.1 given.2 = .ok text.2) given texts

theorem Texts.map_fst {eval : Evaluator α} {given : List (Field × α)}
    {texts : List (Field × String)} (h : Texts eval given texts) :
    texts.map Prod.fst = given.map Prod.fst := by
  induction h with
  | nil => rfl
  | cons hfirst _ ih => rw [List.map_cons, List.map_cons, hfirst.1, ih]

theorem Texts.mem_iff {eval : Evaluator α} {given : List (Field × α)}
    {texts : List (Field × String)} (h : Texts eval given texts) {field : Field} {text : String} :
    (field, text) ∈ texts ↔ ∃ value, (field, value) ∈ given ∧ eval field value = .ok text := by
  induction h with
  | nil => simp
  | @cons first found given texts hfirst _ ih =>
    obtain ⟨firstField, firstValue⟩ := first
    obtain ⟨hfield, heval⟩ := hfirst
    rw [List.mem_cons, ih]
    constructor
    · rintro (rfl | ⟨value, hmem, hvalue⟩)
      · obtain rfl : field = firstField := hfield
        exact ⟨firstValue, List.mem_cons_self, heval⟩
      · exact ⟨value, List.mem_cons_of_mem _ hmem, hvalue⟩
    · rintro ⟨value, hmem, hvalue⟩
      rcases List.mem_cons.1 hmem with heq | hmem
      · obtain ⟨rfl, rfl⟩ := Prod.ext_iff.1 heq
        exact .inl (Prod.ext hfield.symm (Except.ok.inj (hvalue.symm.trans heval)))
      · exact .inr ⟨value, hmem, hvalue⟩

theorem Texts.forall_ok {eval : Evaluator α} {given : List (Field × α)}
    {texts : List (Field × String)} (h : Texts eval given texts) :
    ∀ pair ∈ given, ∃ text, eval pair.1 pair.2 = .ok text := by
  induction h with
  | nil => exact List.forall_mem_nil _
  | cons hfirst _ ih => exact List.forall_mem_cons.2 ⟨⟨_, hfirst.2⟩, ih⟩

theorem asked_evaluateFields (eval : Evaluator α) (given : List (Field × α)) :
    (evaluateFields eval given).asked = (callsFor eval given).map Prod.fst := by
  induction given with
  | nil => rfl
  | cons first rest ih =>
    unfold evaluateFields callsFor
    split <;> simp_all

/-- Fields all come to texts, or there is a first that fails and no later one is evaluated. -/
theorem evaluateFields_cases (eval : Evaluator α) (given : List (Field × α)) :
    (∃ texts, Texts eval given texts ∧ (evaluateFields eval given).result = .ok texts ∧
      callsFor eval given = given) ∨
    ∃ before field value after fault, given = before ++ (field, value) :: after ∧
      (∀ pair ∈ before, ∃ text, eval pair.1 pair.2 = .ok text) ∧
      eval field value = .error fault ∧ (evaluateFields eval given).result = .error fault ∧
      callsFor eval given = before ++ [(field, value)] := by
  induction given with
  | nil => exact .inl ⟨[], .nil, rfl, rfl⟩
  | cons first rest ih =>
    obtain ⟨field, value⟩ := first
    unfold evaluateFields callsFor
    cases heval : eval field value with
    | error fault =>
      exact .inr ⟨[], field, value, rest, fault, rfl, List.forall_mem_nil _, heval, rfl, rfl⟩
    | ok text =>
      obtain ⟨texts, htexts, hresult, hcalls⟩ |
          ⟨before, later, found, after, fault, rfl, hbefore, hfault, hresult, hcalls⟩ := ih
      · refine .inl ⟨(field, text) :: texts, .cons ⟨rfl, heval⟩ htexts, ?_, ?_⟩
        · simp [hresult, Except.map]
        · simp [hcalls]
      · refine .inr ⟨(field, value) :: before, later, found, after, fault, rfl, ?_, hfault, ?_, ?_⟩
        · exact List.forall_mem_cons.2 ⟨⟨text, heval⟩, hbefore⟩
        · simp [hresult, Except.map]
        · simp [hcalls]

/-- Evaluation is the same for evaluators that agree on the calls that are made. -/
theorem evaluateFields_congr {eval eval' : Evaluator α} {given : List (Field × α)}
    (h : ∀ call ∈ callsFor eval given, eval call.1 call.2 = eval' call.1 call.2) :
    evaluateFields eval given = evaluateFields eval' given ∧
      callsFor eval given = callsFor eval' given := by
  induction given with
  | nil => exact ⟨rfl, rfl⟩
  | cons first rest ih =>
    have hfirst : eval first.1 first.2 = eval' first.1 first.2 := by
      refine h first ?_
      unfold callsFor
      split <;> exact List.mem_cons_self
    unfold callsFor at h
    unfold evaluateFields callsFor
    cases heval : eval first.1 first.2 with
    | error fault => simp [← hfirst, heval]
    | ok text =>
      rw [heval] at h
      have ih := ih fun call hcall => h call (List.mem_cons_of_mem _ hcall)
      simp [← hfirst, heval, ih]

/-! ## Normalizing -/

/-- The calls of the evaluator for some arguments. -/
def calls (arguments : List (Argument α)) (eval : Evaluator α) : List (Field × α) :=
  match Fields.ofArguments arguments with
  | .error _ => []
  | .ok fields => callsFor eval fields.given

/-- The job that some arguments describe, with the fields asked for. -/
def normalizeArguments (identity : String) (location : Location) (arguments : List (Argument α))
    (eval : Evaluator α) : Evaluated Job :=
  match ArgumentShape.classify arguments with
  | .error fault => ⟨[], .error fault⟩
  | .ok shape => normalizeTracing identity location shape eval

theorem normalizeArguments_eq (identity : String) (location : Location)
    (arguments : List (Argument α)) (eval : Evaluator α) :
    normalizeArguments identity location arguments eval =
      match Fields.ofArguments arguments with
      | .error fault => ⟨[], .error fault⟩
      | .ok fields =>
        ⟨(evaluateFields eval fields.given).asked,
          (evaluateFields eval fields.given).result.bind (jobOfTexts identity location)⟩ := by
  unfold normalizeArguments normalizeTracing Fields.ofArguments
  cases ArgumentShape.classify arguments <;> rfl

theorem result_normalizeArguments (identity : String) (location : Location)
    (arguments : List (Argument α)) (eval : Evaluator α) :
    (normalizeArguments identity location arguments eval).result =
      (ArgumentShape.classify arguments).bind (normalize identity location · eval) := by
  unfold normalizeArguments
  cases ArgumentShape.classify arguments <;> rfl

theorem asked_normalizeArguments (identity : String) (location : Location)
    (arguments : List (Argument α)) (eval : Evaluator α) :
    (normalizeArguments identity location arguments eval).asked =
      (calls arguments eval).map Prod.fst := by
  rw [normalizeArguments_eq, calls]
  cases Fields.ofArguments arguments with
  | error fault => rfl
  | ok fields => exact asked_evaluateFields eval fields.given

/-- Only the calls matter of what the evaluator does. -/
theorem normalizeArguments_congr (identity : String) (location : Location)
    {arguments : List (Argument α)} {eval eval' : Evaluator α}
    (h : ∀ call ∈ calls arguments eval, eval call.1 call.2 = eval' call.1 call.2) :
    normalizeArguments identity location arguments eval =
        normalizeArguments identity location arguments eval' ∧
      calls arguments eval = calls arguments eval' := by
  rw [normalizeArguments_eq, normalizeArguments_eq]
  unfold calls at h ⊢
  cases hfields : Fields.ofArguments arguments with
  | error fault => exact ⟨rfl, rfl⟩
  | ok fields =>
    rw [hfields] at h
    obtain ⟨hsame, hcalls⟩ := evaluateFields_congr h
    dsimp only
    rw [hsame, hcalls]
    exact ⟨rfl, rfl⟩

/-- Two lists of arguments come to the same by the same calls, whatever they are evaluated by. -/
def NormalizedAlike (arguments arguments' : List (Argument α)) : Prop :=
  ∀ identity location eval,
    normalizeArguments identity location arguments eval =
        normalizeArguments identity location arguments' eval ∧
      calls arguments eval = calls arguments' eval

/-- A list of arguments comes to a fault by no call, whatever it would be evaluated by. -/
def Rejected (arguments : List (Argument α)) : Prop :=
  ∃ fault, ∀ identity location eval,
    (normalizeArguments identity location arguments eval).result = .error fault ∧
      calls arguments eval = []

theorem normalizedAlike_of_ofArguments_eq {arguments arguments' : List (Argument α)}
    (h : Fields.ofArguments arguments = Fields.ofArguments arguments') :
    NormalizedAlike arguments arguments' := by
  intro identity location eval
  rw [normalizeArguments_eq, normalizeArguments_eq, calls, calls, h]
  exact ⟨rfl, rfl⟩

/-- Names in any order and spelling come to the same. -/
theorem Names.normalizedAlike {arguments arguments' : List (Argument α)}
    {filled filled' : List (Field × α)} (h : Names arguments filled) (h' : Names arguments' filled')
    (hperm : filled.Perm filled') (hnodup : (filled.map Prod.fst).Nodup) :
    NormalizedAlike arguments arguments' := by
  refine normalizedAlike_of_ofArguments_eq ?_
  have hcollect : Fields.collect filled = Fields.collect filled' := by
    unfold Fields.collect
    rw [Fields.find?_perm hperm hnodup]
  have hlength : arguments.length = arguments'.length := by
    rw [List.Forall₂.length_eq h, hperm.length_eq, List.Forall₂.length_eq h']
  by_cases hempty : arguments = []
  · rw [hempty, List.length_nil] at hlength
    rw [hempty, List.eq_nil_of_length_eq_zero hlength.symm]
  · have hempty' : arguments' ≠ [] := by
      rintro rfl
      exact hempty (List.eq_nil_of_length_eq_zero hlength)
    rw [Fields.ofArguments_names h hnodup hempty, hcollect,
      Fields.ofArguments_names h' ((hperm.map Prod.fst).nodup_iff.1 hnodup) hempty']

theorem normalizedAlike_onlyCron {key : String} (hkey : key ∈ Field.cron.spellings) (cron : α) :
    NormalizedAlike [.positional cron] [.named key cron] := by
  refine normalizedAlike_of_ofArguments_eq ?_
  have hnames : Names [.named key cron] [(.cron, cron)] := .cons ⟨key, hkey, rfl⟩ .nil
  rw [Fields.ofArguments_names hnames (by simp) (by simp)]
  rfl

theorem normalizedAlike_jobId_cron {idKey cronKey : String} (hidKey : idKey ∈ Field.jobId.spellings)
    (hcronKey : cronKey ∈ Field.cron.spellings) (jobId cron : α) :
    NormalizedAlike [.positional jobId, .positional cron]
      [.named idKey jobId, .named cronKey cron] := by
  refine normalizedAlike_of_ofArguments_eq ?_
  have hnames : Names [.named idKey jobId, .named cronKey cron] [(.jobId, jobId), (.cron, cron)] :=
    .cons ⟨idKey, hidKey, rfl⟩ (.cons ⟨cronKey, hcronKey, rfl⟩ .nil)
  rw [Fields.ofArguments_names hnames (by simp) (by simp)]
  rfl

theorem IllFormed.rejected {arguments : List (Argument α)} (h : IllFormed arguments) :
    Rejected arguments := by
  obtain ⟨fault, hfault⟩ := illFormed_iff.1 h
  refine ⟨fault, fun identity location eval => ?_⟩
  rw [normalizeArguments_eq, calls, hfault]
  exact ⟨rfl, rfl⟩

/-! ## Jobs and their descriptions -/

/-- What the arguments tell of a field: the text that the value given for it evaluates to. -/
def Tells (arguments : List (Argument α)) (eval : Evaluator α) (field : Field) (text : String) :
    Prop :=
  ∃ value, GivesValue arguments field value ∧ eval field value = .ok text

/-- A job as its declaration and what is told of its fields describe it. -/
structure DescribedBy (tells : Field → String → Prop) (declared : String) (place : Location)
    (job : Job) : Prop where
  identity : job.identity = declared
  location : job.location = place
  cron : tells .cron job.cron
  cronNotBlank : Text.isAllBlank job.cron = false
  id : (tells .jobId job.id ∧ job.id ≠ "") ∨
    (job.id = declared ∧ ∀ text, tells .jobId text → text = "")
  queue : tells .queue job.queue ∨ (job.queue = "" ∧ ∀ text, ¬ tells .queue text)
  timeZone : tells .timeZone job.timeZone ∨ (job.timeZone = "" ∧ ∀ text, ¬ tells .timeZone text)

/-- What the fields that are given come to, and the calls made for it. -/
inductive Normalizes (identity : String) (location : Location) (arguments : List (Argument α))
    (eval : Evaluator α) (given : List (Field × α)) :
    Except Fault Job → List (Field × α) → Prop
  | failed {before after : List (Field × α)} {field : Field} {value : α} {fault : Fault}
      (hgiven : given = before ++ (field, value) :: after)
      (hbefore : ∀ pair ∈ before, ∃ text, eval pair.1 pair.2 = .ok text)
      (hfault : eval field value = .error fault) :
      Normalizes identity location arguments eval given (.error fault) (before ++ [(field, value)])
  | blank {cron : String} (hall : ∀ pair ∈ given, ∃ text, eval pair.1 pair.2 = .ok text)
      (hcron : Tells arguments eval .cron cron) (hblank : Text.isAllBlank cron = true) :
      Normalizes identity location arguments eval given (.error .emptyCron) given
  | described {job : Job} (hall : ∀ pair ∈ given, ∃ text, eval pair.1 pair.2 = .ok text)
      (hjob : DescribedBy (Tells arguments eval) identity location job)
      (hpath : job.typePath = identity) :
      Normalizes identity location arguments eval given (.ok job) given

theorem Normalizes.describedBy {identity : String} {location : Location}
    {arguments : List (Argument α)} {eval : Evaluator α} {given made : List (Field × α)}
    {result : Except Fault Job} (h : Normalizes identity location arguments eval given result made)
    {job : Job} (hjob : result = .ok job) :
    DescribedBy (Tells arguments eval) identity location job := by
  cases h with
  | failed => cases hjob
  | blank => cases hjob
  | described _ hdescribed _ => exact Except.ok.inj hjob ▸ hdescribed

/-- What is found among texts is what is told. -/
theorem Texts.find?_eq_some_iff {arguments : List (Argument α)} {eval : Evaluator α}
    {fields : Fields α} {texts : List (Field × String)}
    (hfields : Fields.ofArguments arguments = .ok fields) (h : Texts eval fields.given texts)
    {field : Field} {text : String} :
    Fields.find? texts field = some text ↔ Tells arguments eval field text := by
  have hnodup : (texts.map Prod.fst).Nodup := h.map_fst ▸ Fields.nodup_given fields
  rw [Fields.find?_eq_some_iff hnodup, h.mem_iff]
  exact exists_congr fun value => and_congr_left' (Fields.gives_iff_mem_given hfields).symm

/-- A text that may be left out is told, or is empty by default. -/
theorem getD_of_iff {found : Option String} {tells : String → Prop}
    (h : ∀ text, found = some text ↔ tells text) :
    tells (found.getD "") ∨ (found.getD "" = "" ∧ ∀ text, ¬ tells text) := by
  cases found with
  | none => exact .inr ⟨rfl, fun text htold => Option.some_ne_none text ((h text).2 htold).symm⟩
  | some text => exact .inl ((h text).1 rfl)

theorem describedBy_new {tells : Field → String → Prop} {texts : List (Field × String)}
    {declared : String} {place : Location}
    (h : ∀ field text, Fields.find? texts field = some text ↔ tells field text) {cron : String}
    (hcron : tells .cron cron) (hblank : Text.isAllBlank cron = false) :
    DescribedBy tells declared place
      (Job.new declared (Fields.find? texts .jobId) cron (Fields.find? texts .queue)
        (Fields.find? texts .timeZone) place) where
  identity := rfl
  location := rfl
  cron := hcron
  cronNotBlank := hblank
  id := by
    unfold Job.new
    cases hid : Fields.find? texts .jobId with
    | none =>
      refine .inr ⟨rfl, fun text htold => ?_⟩
      rw [(h .jobId text).2 htold] at hid
      cases hid
    | some id =>
      have htold := (h .jobId id).1 hid
      by_cases hempty : id = ""
      · refine .inr ⟨by simp [hempty], fun text hother => ?_⟩
        rw [← hempty]
        exact Option.some.inj (((h .jobId text).2 hother).symm.trans hid)
      · exact .inl (by simpa [hempty] using htold)
  queue := getD_of_iff (h .queue)
  timeZone := getD_of_iff (h .timeZone)

/-- Arguments that are sorted into fields come to a job, or to the fault of the first field that
    fails, or to a blank cron. -/
theorem normalizes_of_ofArguments {arguments : List (Argument α)} {fields : Fields α}
    (h : Fields.ofArguments arguments = .ok fields) (identity : String) (location : Location)
    (eval : Evaluator α) :
    Normalizes identity location arguments eval fields.given
      (normalizeArguments identity location arguments eval).result (calls arguments eval) := by
  rw [normalizeArguments_eq, calls, h]
  dsimp only
  obtain ⟨texts, htexts, hresult, hcalls⟩ |
      ⟨before, field, value, after, fault, hgiven, hbefore, hfault, hresult, hcalls⟩ :=
    evaluateFields_cases eval fields.given
  · have hfind (field : Field) (text : String) :
        Fields.find? texts field = some text ↔ Tells arguments eval field text :=
      htexts.find?_eq_some_iff h
    obtain ⟨cron, hcron⟩ : ∃ cron, Tells arguments eval .cron cron := by
      have hmem : (Field.cron, fields.cron) ∈ fields.given := by
        rw [Fields.mem_given_iff]
        rfl
      obtain ⟨cron, heval⟩ := htexts.forall_ok _ hmem
      exact ⟨cron, fields.cron, (Fields.gives_iff_mem_given h).2 hmem, heval⟩
    rw [hresult, hcalls, Except.bind, jobOfTexts, (hfind .cron cron).2 hcron]
    by_cases hblank : Text.isAllBlank cron = true
    · simp only [Option.getD_some, hblank, if_true]
      exact .blank htexts.forall_ok hcron hblank
    · rw [Bool.not_eq_true] at hblank
      simp only [Option.getD_some, hblank, Bool.false_eq_true, if_false]
      exact .described htexts.forall_ok (describedBy_new hfind hcron hblank) rfl
  · rw [hresult, hcalls]
    exact .failed hgiven hbefore hfault

/-- A job is what the arguments tell. -/
theorem describedBy_of_normalizeArguments {identity : String} {location : Location}
    {arguments : List (Argument α)} {eval : Evaluator α} {job : Job}
    (h : (normalizeArguments identity location arguments eval).result = .ok job) :
    DescribedBy (Tells arguments eval) identity location job := by
  cases hfields : Fields.ofArguments arguments with
  | error fault =>
    rw [normalizeArguments_eq, hfields] at h
    cases h
  | ok fields => exact (normalizes_of_ofArguments hfields identity location eval).describedBy h

/-! ## What a job depends on -/

/-- A job depends on the field that each argument fills, and on nothing else of how the arguments
    are written. -/
theorem normalize_by_fields :
    -- a list is classified and normalized, and only the calls matter of what the evaluator does
    (∀ (identity : String) (location : Location) (arguments : List (Argument α))
      (eval eval' : Evaluator α),
      (normalizeArguments identity location arguments eval).result =
          (ArgumentShape.classify arguments).bind (normalize identity location · eval) ∧
        (normalizeArguments identity location arguments eval).asked =
          (calls arguments eval).map Prod.fst ∧
        ((∀ call ∈ calls arguments eval, eval call.1 call.2 = eval' call.1 call.2) →
          normalizeArguments identity location arguments eval =
              normalizeArguments identity location arguments eval' ∧
            calls arguments eval = calls arguments eval')) ∧
    -- names may stand in any order, with their keys in either spelling
    (∀ (arguments arguments' : List (Argument α)) (filled filled' : List (Field × α)),
      Names arguments filled → Names arguments' filled' → (filled.map Prod.fst).Nodup →
        filled.Perm filled' → NormalizedAlike arguments arguments') ∧
    -- places stand for names
    (∀ (cron : α), ∀ key ∈ Field.cron.spellings,
      NormalizedAlike [.positional cron] [.named key cron]) ∧
    (∀ (jobId cron : α), ∀ idKey ∈ Field.jobId.spellings, ∀ cronKey ∈ Field.cron.spellings,
      NormalizedAlike [.positional jobId, .positional cron]
        [.named idKey jobId, .named cronKey cron]) ∧
    -- what is ill formed is rejected in every order
    (∀ arguments arguments' : List (Argument α), IllFormed arguments → arguments.Perm arguments' →
      Rejected arguments') ∧
    -- in what is not, each field has at most one value, and they are evaluated one by one
    (∀ arguments : List (Argument α), ¬ IllFormed arguments →
      ∃ given : List (Field × α), (given.map Prod.fst).Sublist Field.order ∧
        (∀ field value, (field, value) ∈ given ↔ GivesValue arguments field value) ∧
        ∀ identity location eval,
          Normalizes identity location arguments eval given
            (normalizeArguments identity location arguments eval).result
            (calls arguments eval)) ∧
    -- a job is what the arguments tell
    (∀ (identity : String) (location : Location) (arguments : List (Argument α))
      (eval : Evaluator α) (job : Job),
      (normalizeArguments identity location arguments eval).result = .ok job →
        DescribedBy (Tells arguments eval) identity location job) := by
  refine ⟨fun identity location arguments eval _ =>
      ⟨result_normalizeArguments identity location arguments eval,
        asked_normalizeArguments identity location arguments eval,
        normalizeArguments_congr identity location⟩,
    fun _ _ _ _ hnames hnames' hnodup hperm => hnames.normalizedAlike hnames' hperm hnodup,
    fun cron key hkey => normalizedAlike_onlyCron hkey cron,
    fun jobId cron idKey hidKey cronKey hcronKey =>
      normalizedAlike_jobId_cron hidKey hcronKey jobId cron,
    fun arguments arguments' hill hperm => (hill.perm hperm).rejected,
    fun arguments hwell => ?_, fun _ _ _ _ _ => describedBy_of_normalizeArguments⟩
  cases hfields : Fields.ofArguments arguments with
  | error fault => exact absurd (illFormed_iff.2 ⟨fault, hfields⟩) hwell
  | ok fields =>
    exact ⟨fields.given, Fields.sublist_given fields,
      fun field value => (Fields.gives_iff_mem_given hfields).symm,
      normalizes_of_ofArguments hfields⟩

/-- Fields are evaluated in their own order, and an empty id is no id. -/
example : normalizeArguments "app::A" ⟨⟨"lib.rs"⟩, 3⟩
      [.named "Cron" "@daily", .named "job_id" ""] (fun _ text => .ok text) =
    ⟨[.jobId, .cron], .ok ⟨"app::A", "app::A", "app::A", "@daily", "", "", ⟨⟨"lib.rs"⟩, 3⟩⟩⟩ := by
  rfl

end JobRoster
