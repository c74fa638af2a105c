import Mathlib.Data.List.Nodup
import JobRoster.Proofs.Job.Arguments

/-!
# Sorting arguments into fields

Arguments are sorted before any of them is evaluated. What is sorted depends on the fields that are
filled, not on the order of names or the spelling of keys; it fails for the lists that are ill
formed, and for no others.
-/

namespace JobRoster

variable {α : Type}

/-! ## Sorting into fields -/

namespace Fields

/-- The first value that a field is filled with is the only one, if no field is filled twice. -/
theorem find?_eq_some_iff {β : Type} {filled : List (Field × β)} {field : Field} {value : β}
    (h : (filled.map Prod.fst).Nodup) :
    find? filled field = some value ↔ (field, value) ∈ filled := by
  induction filled with
  | nil => simp [find?]
  | cons given filled ih =>
    obtain ⟨hfresh, hrest⟩ := List.nodup_cons.1 h
    have ih := ih hrest
    by_cases hfield : given.1 = field
    · have hnot : (field, value) ∉ filled := fun hmem =>
        hfresh (hfield ▸ List.mem_map_of_mem (f := Prod.fst) hmem)
      simp [find?, hfield, hnot, Prod.ext_iff, eq_comm]
    · have hne : (field, value) ≠ given := by
        rintro rfl
        exact hfield rfl
      simpa [find?, hfield, hne] using ih

theorem find?_perm {β : Type} {filled filled' : List (Field × β)} (hperm : filled.Perm filled')
    (h : (filled.map Prod.fst).Nodup) : find? filled = find? filled' := by
  funext field
  refine Option.ext fun value => ?_
  rw [find?_eq_some_iff h, find?_eq_some_iff ((hperm.map Prod.fst).nodup_iff.1 h), hperm.mem_iff]

/-- The fields of named arguments that are assigned. -/
def collect (filled : List (Field × α)) : Except Fault (Fields α) :=
  match find? filled .cron with
  | some cron => .ok ⟨find? filled .jobId, cron, find? filled .queue, find? filled .timeZone⟩
  | none => .error .missingCron

/-- The fields of a list of arguments. -/
def ofArguments (arguments : List (Argument α)) : Except Fault (Fields α) :=
  (ArgumentShape.classify arguments).bind ofShape

theorem ofArguments_positional (values : List α) :
    ofArguments (values.map .positional) = ofShape (.positional values) := by
  rw [ofArguments, classify_positional]
  rfl

theorem ofArguments_namedAll {pairs : List (String × α)} (h : pairs ≠ []) :
    ofArguments (namedAll pairs) = (assign [] pairs).bind collect := by
  rw [ofArguments, classify_namedAll h]
  rfl

theorem ofArguments_mixed {arguments : List (Argument α)}
    (hnamed : ∃ argument ∈ arguments, argument.isNamed = true)
    (hplaced : ∃ argument ∈ arguments, argument.isNamed = false) :
    ofArguments arguments = .error .mixedArguments := by
  rw [ofArguments, classify_mixed hnamed hplaced]
  rfl

/-! ### Named arguments -/

theorem any_fst_eq (filled : List (Field × α)) (field : Field) :
    filled.any (fun given => decide (given.1 = field)) = decide (field ∈ filled.map Prod.fst) := by
  rw [Bool.eq_iff_iff]
  simp

theorem assign_cons {filled : List (Field × α)} {key : String} {value : α} {field : Field}
    {pairs : List (String × α)} (hkey : key ∈ field.spellings)
    (hfresh : field ∉ filled.map Prod.fst) :
    assign filled ((key, value) :: pairs) = assign (filled ++ [(field, value)]) pairs := by
  simp only [assign, Field.ofKey?_of_mem_spellings hkey, any_fst_eq, hfresh, decide_false,
    Bool.false_eq_true, if_false]

/-- Arguments that fill fields which are not filled yet are assigned one by one. -/
theorem assign_append {filled new : List (Field × α)} {before : List (String × α)}
    (h : Names (namedAll before) new) (hnodup : ((filled ++ new).map Prod.fst).Nodup)
    (rest : List (String × α)) : assign filled (before ++ rest) = assign (filled ++ new) rest := by
  induction before generalizing filled new with
  | nil =>
    cases h
    rw [List.append_nil, List.nil_append]
  | cons pair before ih =>
    cases h with
    | @cons _ given _ new hgiven hrest =>
      obtain ⟨key, hkey, heq⟩ := hgiven
      obtain ⟨rfl, hvalue⟩ := Argument.named.inj heq
      have hfresh : given.1 ∉ filled.map Prod.fst := by
        rw [List.map_append, List.map_cons, List.nodup_middle] at hnodup
        exact fun hmem => (List.nodup_cons.1 hnodup).1 (List.mem_append_left _ hmem)
      have hsplit : filled ++ given :: new = filled ++ [given] ++ new := by simp
      rw [hsplit] at hnodup ⊢
      have hpair : pair = (pair.1, given.2) := Prod.ext rfl hvalue
      rw [List.cons_append, hpair, assign_cons hkey hfresh]
      exact ih hrest hnodup

theorem assign_unknown {filled : List (Field × α)} {key : String} {value : α}
    {after : List (String × α)} (hkey : ∀ field : Field, key ∉ field.spellings) :
    assign filled ((key, value) :: after) = .error (.unknownArgument key) := by
  simp only [assign, Field.ofKey?_eq_none_iff.2 hkey]

theorem assign_repeated {filled : List (Field × α)} {key : String} {value : α} {field : Field}
    {after : List (String × α)} (hkey : key ∈ field.spellings)
    (hfilled : field ∈ filled.map Prod.fst) :
    assign filled ((key, value) :: after) = .error (.duplicateArgument field.name) := by
  simp only [assign, Field.ofKey?_of_mem_spellings hkey, any_fst_eq, hfilled, decide_true, if_true]

theorem nodup_append_fresh {filled : List (Field × α)} {field : Field} {value : α}
    (h : (filled.map Prod.fst).Nodup) (hfresh : field ∉ filled.map Prod.fst) :
    ((filled ++ [(field, value)]).map Prod.fst).Nodup := by
  rw [List.map_append, List.map_singleton, List.nodup_append]
  refine ⟨h, List.nodup_singleton field, fun given hgiven other hother heq => ?_⟩
  obtain rfl := List.mem_singleton.1 hother
  exact hfresh (heq ▸ hgiven)

/-- Named arguments all fill fields of their own, or there is a first one that does not. -/
theorem names_cases (filled : List (Field × α)) (pairs : List (String × α))
    (h : (filled.map Prod.fst).Nodup) :
    (∃ new, Names (namedAll pairs) new ∧ ((filled ++ new).map Prod.fst).Nodup) ∨
      ∃ before key value after new, pairs = before ++ (key, value) :: after ∧
        Names (namedAll before) new ∧ ((filled ++ new).map Prod.fst).Nodup ∧
        ((∀ field : Field, key ∉ field.spellings) ∨
          ∃ field : Field, key ∈ field.spellings ∧ field ∈ (filled ++ new).map Prod.fst) := by
  induction pairs generalizing filled with
  | nil => exact .inl ⟨[], .nil, by simpa using h⟩
  | cons pair pairs ih =>
    obtain ⟨key, value⟩ := pair
    cases hkey : Field.ofKey? key with
    | none =>
      exact .inr ⟨[], key, value, pairs, [], rfl, .nil, by simpa using h,
        .inl (Field.ofKey?_eq_none_iff.1 hkey)⟩
    | some field =>
      have hkey := Field.ofKey?_eq_some_iff.1 hkey
      by_cases hfilled : field ∈ filled.map Prod.fst
      · exact .inr ⟨[], key, value, pairs, [], rfl, .nil, by simpa using h,
          .inr ⟨field, hkey, by simpa using hfilled⟩⟩
      · have hmore : ((filled ++ [(field, value)]).map Prod.fst).Nodup :=
          nodup_append_fresh h hfilled
        have hsplit : ∀ new,
            filled ++ [(field, value)] ++ new = filled ++ (field, value) :: new := by
          simp
        obtain ⟨new, hnew, hnodup⟩ |
            ⟨before, other, found, after, new, rfl, hnew, hnodup, hstray⟩ :=
          ih _ hmore
        · exact .inl ⟨(field, value) :: new, .cons ⟨key, hkey, rfl⟩ hnew, hsplit new ▸ hnodup⟩
        · exact .inr ⟨(key, value) :: before, other, found, after, (field, value) :: new, rfl,
            .cons ⟨key, hkey, rfl⟩ hnew, hsplit new ▸ hnodup, hsplit new ▸ hstray⟩

/-- Named arguments that fill fields of their own are collected. -/
theorem ofArguments_names {arguments : List (Argument α)} {filled : List (Field × α)}
    (h : Names arguments filled) (hnodup : (filled.map Prod.fst).Nodup) (hne : arguments ≠ []) :
    ofArguments arguments = collect filled := by
  obtain ⟨pairs, rfl⟩ := exists_namedAll h.isNamed
  have hpairs : pairs ≠ [] := by
    rintro rfl
    exact hne rfl
  have hfresh : (([] ++ filled).map Prod.fst).Nodup := hnodup
  have hassign := assign_append h hfresh []
  rw [List.append_nil, List.nil_append, assign] at hassign
  rw [ofArguments_namedAll hpairs, hassign]
  rfl

/-! ### When sorting succeeds -/

/-- The value of a field, if it is given. -/
def value? (fields : Fields α) : Field → Option α
  | .jobId => fields.jobId
  | .cron => some fields.cron
  | .queue => fields.queue
  | .timeZone => fields.timeZone

theorem value?_of_collect {filled : List (Field × α)} {fields : Fields α}
    (h : collect filled = .ok fields) : fields.value? = find? filled := by
  unfold collect at h
  split at h
  next cron hcron =>
    obtain rfl := Except.ok.inj h
    funext field
    cases field with
    | cron => exact hcron.symm
    | _ => rfl
  next => cases h

theorem collect_eq_error_iff {filled : List (Field × α)} {fault : Fault} :
    collect filled = .error fault ↔ find? filled .cron = none ∧ fault = .missingCron := by
  unfold collect
  cases find? filled .cron with
  | none => simp [eq_comm]
  | some cron => simp

/-- Arguments are sorted into fields if there is one that is the cron, two of which the second is,
    or names for fields of their own with the cron among them. -/
theorem ofArguments_eq_ok_iff {arguments : List (Argument α)} {fields : Fields α} :
    ofArguments arguments = .ok fields ↔
      (arguments = [.positional fields.cron] ∧ fields = ⟨none, fields.cron, none, none⟩) ∨
      (∃ jobId, arguments = [.positional jobId, .positional fields.cron] ∧
        fields = ⟨some jobId, fields.cron, none, none⟩) ∨
      ∃ filled, Names arguments filled ∧ (filled.map Prod.fst).Nodup ∧
        collect filled = .ok fields := by
  constructor
  · intro h
    obtain ⟨values, rfl⟩ | ⟨pairs, hne, rfl⟩ | ⟨hnamed, hplaced⟩ := shape_cases arguments
    · rw [ofArguments_positional] at h
      match values with
      | [cron] =>
        obtain rfl := Except.ok.inj h
        exact .inl ⟨rfl, rfl⟩
      | [jobId, cron] =>
        obtain rfl := Except.ok.inj h
        exact .inr (.inl ⟨jobId, rfl, rfl⟩)
      | [] => cases h
      | _ :: _ :: _ :: _ => cases h
    · rw [ofArguments_namedAll hne] at h
      obtain ⟨new, hnew, hnodup⟩ | ⟨before, key, value, after, new, rfl, hnew, hnodup, hstray⟩ :=
        names_cases [] pairs List.nodup_nil
      · refine .inr (.inr ⟨new, hnew, hnodup, ?_⟩)
        rwa [← ofArguments_namedAll hne, ofArguments_names hnew hnodup (by simpa [namedAll])] at h
      · rw [assign_append hnew hnodup] at h
        obtain hkey | ⟨field, hkey, hfilled⟩ := hstray
        · rw [assign_unknown hkey] at h
          cases h
        · rw [assign_repeated hkey hfilled] at h
          cases h
    · rw [ofArguments_mixed hnamed hplaced] at h
      cases h
  · rintro (⟨rfl, heq⟩ | ⟨jobId, rfl, heq⟩ | ⟨filled, hnames, hnodup, hcollect⟩)
    · rw [heq]
      rfl
    · rw [heq]
      rfl
    · rw [← hcollect]
      refine ofArguments_names hnames hnodup ?_
      rintro rfl
      cases hnames
      cases hcollect

theorem gives_of_names {arguments : List (Argument α)} {filled : List (Field × α)}
    (h : Names arguments filled) {field : Field} {value : α} :
    GivesValue arguments field value ↔ (field, value) ∈ filled := by
  rw [h.mem_iff]
  constructor
  · intro hgives
    cases hgives with
    | named _ hmem hkey => exact ⟨_, hkey, hmem⟩
    | onlyCron => exact absurd List.mem_cons_self (positional_not_mem h.isNamed _)
    | jobId => exact absurd List.mem_cons_self (positional_not_mem h.isNamed _)
    | cron => exact absurd List.mem_cons_self (positional_not_mem h.isNamed _)
  · rintro ⟨key, hkey, hmem⟩
    exact .named h.isNamed hmem hkey

/-- The fields that are given a value are those that the arguments give it. -/
theorem value?_eq_some_iff {arguments : List (Argument α)} {fields : Fields α}
    (h : ofArguments arguments = .ok fields) {field : Field} {value : α} :
    fields.value? field = some value ↔ GivesValue arguments field value := by
  obtain ⟨rfl, heq⟩ | ⟨jobId, rfl, heq⟩ | ⟨filled, hnames, hnodup, hcollect⟩ :=
    ofArguments_eq_ok_iff.1 h
  · rw [heq]
    constructor
    · intro hvalue
      cases field with
      | cron => exact Option.some.inj hvalue ▸ .onlyCron _
      | _ => cases hvalue
    · rintro (⟨hnamed, -, -⟩ | _)
      · exact absurd List.mem_cons_self (positional_not_mem hnamed _)
      · rfl
  · rw [heq]
    constructor
    · intro hvalue
      cases field with
      | cron => exact Option.some.inj hvalue ▸ .cron _ _
      | jobId => exact Option.some.inj hvalue ▸ .jobId _ _
      | _ => cases hvalue
    · rintro (⟨hnamed, -, -⟩ | _ | _ | _)
      · exact absurd List.mem_cons_self (positional_not_mem hnamed _)
      · rfl
      · rfl
  · rw [value?_of_collect hcollect, find?_eq_some_iff hnodup, gives_of_names hnames]

theorem mem_given_iff {fields : Fields α} {field : Field} {value : α} :
    (field, value) ∈ fields.given ↔ fields.value? field = some value := by
  cases field <;> simp [given, value?, eq_comm]

theorem gives_iff_mem_given {arguments : List (Argument α)} {fields : Fields α}
    (h : ofArguments arguments = .ok fields) {field : Field} {value : α} :
    GivesValue arguments field value ↔ (field, value) ∈ fields.given := by
  rw [mem_given_iff, value?_eq_some_iff h]

/-- Fields are evaluated in their order, each once. -/
theorem sublist_given (fields : Fields α) : (fields.given.map Prod.fst).Sublist Field.order := by
  obtain ⟨jobId, cron, queue, timeZone⟩ := fields
  cases jobId <;> cases queue <;> cases timeZone <;> simp [given, Field.order]

theorem nodup_given (fields : Fields α) : (fields.given.map Prod.fst).Nodup :=
  (sublist_given fields).nodup (by decide)

end Fields

/-! ## Lists that are rejected -/

theorem Names.countP_isOf {arguments : List (Argument α)} {filled : List (Field × α)}
    (h : Names arguments filled) (field : Field) :
    arguments.countP (Argument.isOf field) = (filled.map Prod.fst).count field := by
  induction h with
  | nil => rfl
  | @cons argument given arguments filled hgiven _ ih =>
    obtain ⟨key, hkey, rfl⟩ := hgiven
    have hone : (Argument.named key given.2).isOf field = (given.1 == field) := by
      have hfield : key ∈ field.spellings ↔ given.1 = field := by
        rw [← Field.ofKey?_eq_some_iff, Field.ofKey?_of_mem_spellings hkey, Option.some.injEq]
      simp only [Argument.isOf, hfield, beq_eq_decide]
    rw [List.countP_cons, List.map_cons, List.count_cons, ih, hone]

/-- A field is not found where no argument has a key of it. -/
theorem Names.find?_eq_none_iff {arguments : List (Argument α)} {filled : List (Field × α)}
    (h : Names arguments filled) {field : Field} :
    Fields.find? filled field = none ↔ ∀ argument ∈ arguments, argument.isOf field = false := by
  have hfind : Fields.find? filled field = none ↔ field ∉ filled.map Prod.fst := by
    simp only [Fields.find?, Option.map_eq_none_iff, List.find?_eq_none, decide_eq_true_eq,
      List.mem_map, not_exists, not_and]
  rw [hfind, ← List.count_eq_zero, ← h.countP_isOf, List.countP_eq_zero]
  simp only [Bool.not_eq_true]

theorem Names.exists_isOf {arguments : List (Argument α)} {filled : List (Field × α)}
    (h : Names arguments filled) {argument : Argument α} (hmem : argument ∈ arguments) :
    ∃ field, argument.isOf field = true := by
  induction h with
  | nil => cases hmem
  | cons hgiven _ ih =>
    obtain ⟨key, hkey, rfl⟩ := hgiven
    rcases List.mem_cons.1 hmem with rfl | hmem
    · exact ⟨_, decide_eq_true hkey⟩
    · exact ih hmem

/-- Arguments that fill fields of their own, the cron among them, are well formed. -/
theorem Names.not_illFormed {arguments : List (Argument α)} {filled : List (Field × α)}
    (h : Names arguments filled) (hnodup : (filled.map Prod.fst).Nodup)
    (hcron : Field.cron ∈ filled.map Prod.fst) : ¬ IllFormed arguments := by
  have hone : 0 < arguments.countP (Argument.isOf .cron) := by
    rw [h.countP_isOf]
    exact List.count_pos_iff.2 hcron
  obtain ⟨first, hfirst, hisOf⟩ := List.countP_pos_iff.1 hone
  rintro (⟨-, argument, hmem, hplaced⟩ | ⟨hplaced, -, -⟩ | ⟨-, argument, hmem, hunknown⟩ |
    ⟨-, field, htwice⟩ | ⟨-, hnone⟩)
  · exact Bool.false_ne_true (hplaced.symm.trans (h.isNamed argument hmem))
  · exact Bool.false_ne_true ((hplaced first hfirst).symm.trans (h.isNamed first hfirst))
  · obtain ⟨field, hfield⟩ := h.exists_isOf hmem
    exact Bool.false_ne_true ((hunknown field).symm.trans hfield)
  · rw [h.countP_isOf] at htwice
    exact absurd (List.nodup_iff_count_le_one.1 hnodup field) (Nat.not_le.2 htwice)
  · exact Bool.false_ne_true ((hnone first hfirst).symm.trans hisOf)

theorem not_illFormed_positional (values : List α) (h : values.length = 1 ∨ values.length = 2) :
    ¬ IllFormed (values.map .positional) := by
  have hplaced : ∀ argument ∈ values.map Argument.positional, argument.isNamed = false := by
    intro argument hmem
    obtain ⟨value, -, rfl⟩ := List.mem_map.1 hmem
    rfl
  have hmixed : ¬ ∀ argument ∈ values.map Argument.positional, argument.isNamed = true := by
    intro hnamed
    obtain ⟨value, hvalue⟩ := List.exists_mem_of_length_pos (l := values) (by omega)
    exact positional_not_mem hnamed value (List.mem_map_of_mem hvalue)
  rintro (⟨⟨argument, hmem, hnamed⟩, -⟩ | ⟨-, hone, htwo⟩ | ⟨hnamed, -⟩ | ⟨hnamed, -⟩ | ⟨hnamed, -⟩)
  · exact Bool.false_ne_true ((hplaced argument hmem).symm.trans hnamed)
  · rw [List.length_map] at hone htwo
    omega
  · exact hmixed hnamed
  · exact hmixed hnamed
  · exact hmixed hnamed

theorem illFormed_of_stray {before after : List (String × α)} {key : String} {value : α}
    {new : List (Field × α)} (hnew : Names (namedAll before) new)
    (hstray : (∀ field : Field, key ∉ field.spellings) ∨
      ∃ field : Field, key ∈ field.spellings ∧ field ∈ new.map Prod.fst) :
    IllFormed (namedAll (before ++ (key, value) :: after)) := by
  have hnamed : ∀ argument ∈ namedAll (before ++ (key, value) :: after),
      argument.isNamed = true := fun _ => isNamed_of_mem_namedAll
  have hsplit : namedAll (before ++ (key, value) :: after) =
      namedAll before ++ .named key value :: namedAll after := by
    simp [namedAll]
  obtain hkey | ⟨field, hkey, hfilled⟩ := hstray
  · refine .unknownKey hnamed ⟨.named key value, by simp [hsplit], fun field => ?_⟩
    exact decide_eq_false (hkey field)
  · refine .fieldTwice hnamed ⟨field, ?_⟩
    have hbefore : 0 < (new.map Prod.fst).count field := List.count_pos_iff.2 hfilled
    have hone : (Argument.named key value).isOf field = true := decide_eq_true hkey
    rw [hsplit, List.countP_append, hnew.countP_isOf, List.countP_cons_of_pos hone]
    omega

/-- Sorting fails for the lists that are ill formed, and for no others. -/
theorem illFormed_iff {arguments : List (Argument α)} :
    IllFormed arguments ↔ ∃ fault, Fields.ofArguments arguments = .error fault := by
  constructor
  · intro hill
    cases h : Fields.ofArguments arguments with
    | error fault => exact ⟨fault, rfl⟩
    | ok fields =>
      exfalso
      obtain ⟨rfl, -⟩ | ⟨jobId, rfl, -⟩ | ⟨filled, hnames, hnodup, hcollect⟩ :=
        Fields.ofArguments_eq_ok_iff.1 h
      · exact not_illFormed_positional [fields.cron] (.inl rfl) hill
      · exact not_illFormed_positional [jobId, fields.cron] (.inr rfl) hill
      · have hcron : Fields.find? filled .cron = some fields.cron :=
          (congrFun (Fields.value?_of_collect hcollect) .cron).symm
        have hmem := (Fields.find?_eq_some_iff hnodup).1 hcron
        exact hnames.not_illFormed hnodup (List.mem_map_of_mem hmem) hill
  · rintro ⟨fault, h⟩
    obtain ⟨values, rfl⟩ | ⟨pairs, hne, rfl⟩ | ⟨hnamed, hplaced⟩ := shape_cases arguments
    · rw [Fields.ofArguments_positional] at h
      have hplaced : ∀ argument ∈ values.map Argument.positional, argument.isNamed = false := by
        simp [Argument.isNamed]
      refine .arity hplaced ?_ ?_ <;> rw [List.length_map] <;> intro hlength
      · obtain ⟨cron, rfl⟩ := List.length_eq_one_iff.1 hlength
        cases h
      · obtain ⟨jobId, cron, rfl⟩ := List.length_eq_two.1 hlength
        cases h
    · obtain ⟨new, hnew, hnodup⟩ | ⟨before, key, value, after, new, rfl, hnew, -, hstray⟩ :=
        Fields.names_cases [] pairs List.nodup_nil
      · rw [Fields.ofArguments_names hnew hnodup (by simpa [namedAll]),
          Fields.collect_eq_error_iff] at h
        exact .noCron (fun _ => isNamed_of_mem_namedAll) (hnew.find?_eq_none_iff.1 h.1)
      · exact illFormed_of_stray hnew hstray
    · exact .mixed hnamed hplaced

end JobRoster
