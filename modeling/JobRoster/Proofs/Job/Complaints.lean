import JobRoster.Proofs.Job.Normalizing

/-!
# Complaints about arguments

What can be wrong with the arguments of a marker, check by check. Several checks may have something
to say about one list of arguments. Normalizing reports what the first of them says, and comes to a
job if none has anything to say.
-/

namespace JobRoster

/-! ## Checks -/

/-- What is looked at, in turn, before a marker comes to a job. -/
inductive Check where
  | marker
  | reading
  | mixing
  | arity
  | keys
  | cronGiven
  | values
  | cronText
  | naming
deriving DecidableEq, Repr

/-- Checks of a smaller place come first. -/
def Check.place : Check → Nat
  | marker => 0
  | reading => 1
  | mixing => 2
  | arity => 3
  | keys => 4
  | cronGiven => 5
  | values => 6
  | cronText => 7
  | naming => 8

/-- What the first check to complain says. -/
def FirstFault (complaint : Check → Fault → Prop) (fault : Fault) : Prop :=
  ∃ check, complaint check fault ∧
    ∀ earlier other, earlier.place < check.place → ¬ complaint earlier other

theorem exists_firstFault {complaint : Check → Fault → Prop} {check : Check} {fault : Fault}
    (h : complaint check fault) : ∃ first, FirstFault complaint first := by
  induction hplace : check.place using Nat.strongRecOn generalizing check fault with
  | ind place ih =>
    by_cases hearlier : ∃ earlier other, earlier.place < check.place ∧ complaint earlier other
    · obtain ⟨earlier, other, hlt, hother⟩ := hearlier
      exact ih earlier.place (hplace ▸ hlt) hother rfl
    · simp only [not_exists, not_and] at hearlier
      exact ⟨fault, check, h, hearlier⟩

variable {α : Type}

/-! ## Complaints -/

/-- Fields in the order in which they are evaluated. -/
def Field.Before (earlier field : Field) : Prop :=
  [earlier, field].Sublist Field.order

instance (earlier field : Field) : Decidable (earlier.Before field) :=
  inferInstanceAs (Decidable (List.Sublist _ _))

/-- The fault of the first field that fails among those that are given. -/
def FirstFailing (arguments : List (Argument α)) (eval : Evaluator α) (fault : Fault) : Prop :=
  ∃ field value, GivesValue arguments field value ∧ eval field value = .error fault ∧
    ∀ earlier other, earlier.Before field → GivesValue arguments earlier other →
      ∃ text, eval earlier other = .ok text

/-- What each check says of the arguments of a marker. -/
inductive ArgumentComplaint (eval : Evaluator α) (arguments : List (Argument α)) :
    Check → Fault → Prop
  | mixed (hnamed : ∃ argument ∈ arguments, argument.isNamed = true)
      (hplaced : ∃ argument ∈ arguments, argument.isNamed = false) :
      ArgumentComplaint eval arguments .mixing .mixedArguments
  | arity (hplaced : ∀ argument ∈ arguments, argument.isNamed = false)
      (hone : arguments.length ≠ 1) (htwo : arguments.length ≠ 2) :
      ArgumentComplaint eval arguments .arity (.positionalArity arguments.length)
  /-- The first argument that does not fill a field of its own has a key that is unknown. -/
  | unknownKey {before after : List (Argument α)} {key : String} {value : α}
      {filled : List (Field × α)} (hsplit : arguments = before ++ .named key value :: after)
      (hbefore : Names before filled) (hown : (filled.map Prod.fst).Nodup)
      (hkey : ∀ field : Field, key ∉ field.spellings) :
      ArgumentComplaint eval arguments .keys (.unknownArgument key)
  /-- The first argument that does not fill a field of its own has the key of one that is filled. -/
  | repeatedKey {before after : List (Argument α)} {key : String} {value : α}
      {filled : List (Field × α)} {field : Field}
      (hsplit : arguments = before ++ .named key value :: after)
      (hbefore : Names before filled) (hown : (filled.map Prod.fst).Nodup)
      (hkey : key ∈ field.spellings) (hfilled : field ∈ filled.map Prod.fst) :
      ArgumentComplaint eval arguments .keys (.duplicateArgument field.name)
  | missingCron (hnamed : ∀ argument ∈ arguments, argument.isNamed = true)
      (hcron : ∀ argument ∈ arguments, argument.isOf .cron = false) :
      ArgumentComplaint eval arguments .cronGiven .missingCron
  | value {fault : Fault} (hfault : FirstFailing arguments eval fault) :
      ArgumentComplaint eval arguments .values fault
  | blankCron {cron : String} (hcron : Tells arguments eval .cron cron)
      (hblank : Text.isAllBlank cron = true) :
      ArgumentComplaint eval arguments .cronText .emptyCron

variable {arguments : List (Argument α)} {eval : Evaluator α}

theorem ArgumentComplaint.place_bounds {check : Check} {fault : Fault}
    (h : ArgumentComplaint eval arguments check fault) :
    Check.reading.place < check.place ∧ check.place < Check.naming.place := by
  cases h <;> decide

/-! ## Complaints about the shape -/

/-- Where arguments are not mixed and one is named, all are. -/
theorem forall_isNamed_of_not_mixed
    (hquiet : ∀ fault, ¬ ArgumentComplaint eval arguments .mixing fault)
    {key : String} {value : α} (hmem : .named key value ∈ arguments) :
    ∀ argument ∈ arguments, argument.isNamed = true := by
  by_contra hplaced
  simp only [not_forall, Bool.not_eq_true] at hplaced
  obtain ⟨argument, hargument, hfalse⟩ := hplaced
  exact hquiet _ (.mixed ⟨_, hmem, rfl⟩ ⟨argument, hargument, hfalse⟩)

/-- Named arguments stand as their keys and values do. -/
theorem exists_pairs_of_split {pairs : List (String × α)} {before after : List (Argument α)}
    {key : String} {value : α} (h : namedAll pairs = before ++ .named key value :: after) :
    ∃ early late, pairs = early ++ (key, value) :: late ∧ namedAll early = before := by
  obtain ⟨early, rest, rfl, hearly, hrest⟩ := List.map_eq_append_iff.1 h
  obtain ⟨pair, late, rfl, hpair, -⟩ := List.map_eq_cons_iff.1 hrest
  obtain ⟨hkey, hvalue⟩ := Argument.named.inj hpair
  exact ⟨early, late, by rw [← hkey, ← hvalue], hearly⟩

/-- Named arguments all fill fields of their own, or the first that does not is complained about. -/
theorem names_or_complaint (eval : Evaluator α) (pairs : List (String × α)) :
    (∃ filled, Names (namedAll pairs) filled ∧ (filled.map Prod.fst).Nodup) ∨
      ∃ fault, ArgumentComplaint eval (namedAll pairs) .keys fault := by
  obtain ⟨filled, hfilled, hnodup⟩ |
      ⟨before, key, value, after, filled, rfl, hfilled, hnodup, hstray⟩ :=
    Fields.names_cases [] pairs List.nodup_nil
  · exact .inl ⟨filled, hfilled, hnodup⟩
  · have hsplit : namedAll (before ++ (key, value) :: after) =
        namedAll before ++ .named key value :: namedAll after := by
      simp [namedAll]
    obtain hkey | ⟨field, hkey, hmem⟩ := hstray
    · exact .inr ⟨_, .unknownKey hsplit hfilled hnodup hkey⟩
    · exact .inr ⟨_, .repeatedKey hsplit hfilled hnodup hkey hmem⟩

/-- Named arguments that fill fields of their own up to one of them are sorted into fields from that
    one on. -/
theorem exists_ofArguments_of_split
    (hquiet : ∀ fault, ¬ ArgumentComplaint eval arguments .mixing fault)
    {before after : List (Argument α)} {key : String} {value : α} {filled : List (Field × α)}
    (hsplit : arguments = before ++ .named key value :: after) (hbefore : Names before filled)
    (hown : (filled.map Prod.fst).Nodup) :
    ∃ late, Fields.ofArguments arguments =
      (Fields.assign filled ((key, value) :: late)).bind Fields.collect := by
  have hnamed := forall_isNamed_of_not_mixed hquiet
    (hsplit ▸ List.mem_append_right _ List.mem_cons_self)
  obtain ⟨pairs, rfl⟩ := exists_namedAll hnamed
  obtain ⟨early, late, rfl, rfl⟩ := exists_pairs_of_split hsplit
  refine ⟨late, ?_⟩
  rw [Fields.ofArguments_namedAll (by simp), Fields.assign_append hbefore (by simpa using hown),
    List.nil_append]

/-- Sorting the arguments fails as the first check of their shape says. -/
theorem ArgumentComplaint.ofArguments {check : Check} {fault : Fault}
    (h : ArgumentComplaint eval arguments check fault)
    (hshape : check.place ≤ Check.cronGiven.place)
    (hquiet : ∀ earlier other, earlier.place < check.place →
      ¬ ArgumentComplaint eval arguments earlier other) :
    Fields.ofArguments arguments = .error fault := by
  cases h with
  | mixed hnamed hplaced => exact Fields.ofArguments_mixed hnamed hplaced
  | arity hplaced hone htwo =>
    obtain ⟨values, rfl⟩ := exists_positional hplaced
    rw [List.length_map] at hone htwo ⊢
    rw [Fields.ofArguments_positional]
    match values with
    | [] => rfl
    | [_] => exact absurd rfl hone
    | [_, _] => exact absurd rfl htwo
    | _ :: _ :: _ :: _ => rfl
  | unknownKey hsplit hbefore hown hkey =>
    obtain ⟨late, hsorted⟩ := exists_ofArguments_of_split
      (fun fault => hquiet .mixing fault (by decide)) hsplit hbefore hown
    rw [hsorted, Fields.assign_unknown hkey]
    rfl
  | repeatedKey hsplit hbefore hown hkey hfilled =>
    obtain ⟨late, hsorted⟩ := exists_ofArguments_of_split
      (fun fault => hquiet .mixing fault (by decide)) hsplit hbefore hown
    rw [hsorted, Fields.assign_repeated hkey hfilled]
    rfl
  | missingCron hnamed hcron =>
    have hne : arguments ≠ [] := by
      rintro rfl
      exact hquiet .arity _ (by decide) (.arity (by simp) (by simp) (by simp))
    obtain ⟨pairs, rfl⟩ := exists_namedAll hnamed
    obtain ⟨filled, hfilled, hnodup⟩ | ⟨fault, hfault⟩ := names_or_complaint eval pairs
    · rw [Fields.ofArguments_names hfilled hnodup hne, Fields.collect_eq_error_iff]
      exact ⟨hfilled.find?_eq_none_iff.2 hcron, rfl⟩
    · exact absurd hfault (hquiet .keys fault (by decide))
  | value => exact absurd hshape (by decide)
  | blankCron => exact absurd hshape (by decide)

/-- Something about the shape of ill-formed arguments is complained about. -/
theorem IllFormed.exists_complaint (h : IllFormed arguments) (eval : Evaluator α) :
    ∃ check fault, check.place ≤ Check.cronGiven.place ∧
      ArgumentComplaint eval arguments check fault := by
  have hkeys (hnamed : ∀ argument ∈ arguments, argument.isNamed = true)
      (hnone : ∀ filled : List (Field × α), Names arguments filled →
        ¬ (filled.map Prod.fst).Nodup) :
      ∃ fault, ArgumentComplaint eval arguments .keys fault := by
    obtain ⟨pairs, rfl⟩ := exists_namedAll hnamed
    obtain ⟨filled, hfilled, hnodup⟩ | hfault := names_or_complaint eval pairs
    · exact absurd hnodup (hnone filled hfilled)
    · exact hfault
  cases h with
  | mixed hnamed hplaced => exact ⟨_, _, by decide, .mixed hnamed hplaced⟩
  | arity hplaced hone htwo => exact ⟨_, _, by decide, .arity hplaced hone htwo⟩
  | noCron hnamed hcron => exact ⟨_, _, by decide, .missingCron hnamed hcron⟩
  | unknownKey hnamed hkey =>
    obtain ⟨argument, hmem, hunknown⟩ := hkey
    obtain ⟨fault, hfault⟩ := hkeys hnamed fun filled hnames _ => by
      obtain ⟨field, hfield⟩ := hnames.exists_isOf hmem
      exact Bool.false_ne_true ((hunknown field).symm.trans hfield)
    exact ⟨_, fault, by decide, hfault⟩
  | fieldTwice hnamed htwice =>
    obtain ⟨field, htwice⟩ := htwice
    obtain ⟨fault, hfault⟩ := hkeys hnamed fun filled hnames hnodup => by
      rw [hnames.countP_isOf] at htwice
      exact absurd (List.nodup_iff_count_le_one.1 hnodup field) (Nat.not_le.2 htwice)
    exact ⟨_, fault, by decide, hfault⟩

/-! ## Complaints about values -/

theorem Field.Before.asymm {a b : Field} (h : a.Before b) : ¬ b.Before a := by
  revert h
  cases a <;> cases b <;> decide

theorem Field.before_of_given {fields : Fields α} {before after : List (Field × α)}
    {first later : Field × α} (hsplit : fields.given = before ++ first :: after)
    (hlater : later ∈ after) : first.1.Before later.1 := by
  have hpair : [first, later].Sublist fields.given := by
    rw [hsplit]
    exact ((List.singleton_sublist.2 hlater).cons_cons first).trans
      (List.sublist_append_right _ _)
  exact (hpair.map Prod.fst).trans (Fields.sublist_given fields)

theorem Tells.unique {fields : Fields α} (h : Fields.ofArguments arguments = .ok fields)
    {field : Field} {text text' : String} (htext : Tells arguments eval field text)
    (htext' : Tells arguments eval field text') : text = text' := by
  obtain ⟨value, hgives, heval⟩ := htext
  obtain ⟨value', hgives', heval'⟩ := htext'
  rw [← Fields.value?_eq_some_iff h] at hgives hgives'
  obtain rfl := Option.some.inj (hgives.symm.trans hgives')
  exact Except.ok.inj (heval.symm.trans heval')

/-- The first field that fails of those that are evaluated is the first of those that are given. -/
theorem firstFailing_of_split {fields : Fields α} (h : Fields.ofArguments arguments = .ok fields)
    {before after : List (Field × α)} {field : Field} {value : α} {fault : Fault}
    (hsplit : fields.given = before ++ (field, value) :: after)
    (hbefore : ∀ pair ∈ before, ∃ text, eval pair.1 pair.2 = .ok text)
    (hfault : eval field value = .error fault) : FirstFailing arguments eval fault := by
  refine ⟨field, value, ?_, hfault, fun earlier other hlt hgives => ?_⟩
  · rw [Fields.gives_iff_mem_given h, hsplit]
    exact List.mem_append_right _ List.mem_cons_self
  · rw [Fields.gives_iff_mem_given h, hsplit, List.mem_append, List.mem_cons] at hgives
    obtain hother | hother | hother := hgives
    · exact hbefore _ hother
    · obtain rfl : earlier = field := congrArg Prod.fst hother
      exact absurd hlt hlt.asymm
    · exact absurd hlt (Field.before_of_given hsplit hother).asymm

/-- Evaluating fields fails as the first field that fails does. -/
theorem FirstFailing.evaluateFields {fields : Fields α}
    (h : Fields.ofArguments arguments = .ok fields) {fault : Fault}
    (hfailing : FirstFailing arguments eval fault) :
    (evaluateFields eval fields.given).result = .error fault := by
  obtain ⟨field, value, hgives, hfault, hquiet⟩ := hfailing
  rw [Fields.gives_iff_mem_given h] at hgives
  obtain ⟨texts, htexts, hresult, -⟩ |
      ⟨before, first, found, after, early, hsplit, hbefore, hearly, hresult, -⟩ :=
    evaluateFields_cases eval fields.given
  · obtain ⟨text, htext⟩ := htexts.forall_ok _ hgives
    rw [hfault] at htext
    cases htext
  rw [hresult]
  rw [hsplit, List.mem_append, List.mem_cons] at hgives
  obtain hmem | hmem | hmem := hgives
  · obtain ⟨text, htext⟩ := hbefore _ hmem
    rw [hfault] at htext
    cases htext
  · obtain ⟨rfl, rfl⟩ := Prod.mk.inj hmem
    rw [Except.error.inj (hearly.symm.trans hfault)]
  · -- a field after the one that fails is not the first to fail
    have hfirst : GivesValue arguments first found := by
      rw [Fields.gives_iff_mem_given h, hsplit]
      exact List.mem_append_right _ List.mem_cons_self
    obtain ⟨text, htext⟩ := hquiet first found (Field.before_of_given hsplit hmem) hfirst
    rw [hearly] at htext
    cases htext

/-! ## What normalizing reports -/

/-- Arguments whose shape nothing is said about are sorted into fields. -/
theorem exists_fields_of_quiet
    (h : ∀ check fault, check.place ≤ Check.cronGiven.place →
      ¬ ArgumentComplaint eval arguments check fault) :
    ∃ fields, Fields.ofArguments arguments = .ok fields := by
  cases hfields : Fields.ofArguments arguments with
  | ok fields => exact ⟨fields, rfl⟩
  | error fault =>
    obtain ⟨check, other, hplace, hcomplaint⟩ :=
      (illFormed_iff.2 ⟨fault, hfields⟩).exists_complaint eval
    exact absurd hcomplaint (h check other hplace)

/-- Where every value has a text, the cron is blank or there is a job. -/
theorem Normalizes.of_values {identity : String} {location : Location} {fields : Fields α}
    {result : Except Fault Job} {made : List (Field × α)}
    (h : Normalizes identity location arguments eval fields.given result made)
    (hfields : Fields.ofArguments arguments = .ok fields)
    (hquiet : ∀ fault, ¬ FirstFailing arguments eval fault) :
    (∃ cron, Tells arguments eval .cron cron ∧ Text.isAllBlank cron = true ∧
      result = .error .emptyCron) ∨
    ∃ job, DescribedBy (Tells arguments eval) identity location job ∧ result = .ok job := by
  cases h with
  | failed hgiven hbefore hfault =>
    exact absurd (firstFailing_of_split hfields hgiven hbefore hfault) (hquiet _)
  | blank _ hcron hblank => exact .inl ⟨_, hcron, hblank, rfl⟩
  | described _ hjob _ => exact .inr ⟨_, hjob, rfl⟩

/-- Normalizing fails as the first check to complain says. -/
theorem FirstFault.normalizeArguments {fault : Fault}
    (h : FirstFault (ArgumentComplaint eval arguments) fault) (identity : String)
    (location : Location) :
    (normalizeArguments identity location arguments eval).result = .error fault := by
  obtain ⟨check, hcomplaint, hquiet⟩ := h
  by_cases hshape : check.place ≤ Check.cronGiven.place
  · rw [normalizeArguments_eq, hcomplaint.ofArguments hshape hquiet]
  obtain ⟨fields, hfields⟩ : ∃ fields, Fields.ofArguments arguments = .ok fields :=
    exists_fields_of_quiet fun earlier other hplace => hquiet earlier other (by omega)
  cases hcomplaint with
  | value hfailing =>
    rw [normalizeArguments_eq, hfields]
    dsimp only
    rw [hfailing.evaluateFields hfields]
    rfl
  | @blankCron cron hcron hblank =>
    obtain ⟨-, -, -, hresult⟩ | ⟨job, hjob, -⟩ :=
      (normalizes_of_ofArguments hfields identity location eval).of_values hfields
        fun fault hfailing => hquiet .values fault (by decide) (.value hfailing)
    · exact hresult
    · have hnotBlank := hjob.cronNotBlank
      rw [hjob.cron.unique hfields hcron, hblank] at hnotBlank
      cases hnotBlank
  | _ => exact absurd (by decide) hshape

/-- Arguments that no check complains about come to a job. -/
theorem exists_job_of_quiet (h : ∀ check fault, ¬ ArgumentComplaint eval arguments check fault)
    (identity : String) (location : Location) :
    ∃ job, (normalizeArguments identity location arguments eval).result = .ok job := by
  obtain ⟨fields, hfields⟩ := exists_fields_of_quiet fun check fault _ => h check fault
  obtain ⟨cron, hcron, hblank, -⟩ | ⟨job, -, hresult⟩ :=
    (normalizes_of_ofArguments hfields identity location eval).of_values hfields
      fun fault hfailing => h .values fault (.value hfailing)
  · exact absurd (.blankCron hcron hblank) (h .cronText .emptyCron)
  · exact ⟨job, hresult⟩

end JobRoster
