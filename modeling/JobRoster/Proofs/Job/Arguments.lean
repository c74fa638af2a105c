import Mathlib.Data.List.Forall2
import JobRoster.Job.Arguments

/-!
# Lists of arguments

Arguments are all positional, all named, or mixed. A named one fills the field of its key, in either
spelling. Whether a list is well formed, and which values it gives to fields, is a matter of what
its arguments fill and not of their order.
-/

namespace JobRoster

variable {α : Type}

/-! ## Keys -/

namespace Field

/-- The keys of a field, in snake case and in Pascal case. -/
def spellings : Field → List String
  | jobId => ["job_id", "JobId"]
  | cron => ["cron", "Cron"]
  | queue => ["queue", "Queue"]
  | timeZone => ["time_zone", "TimeZone"]

/-- The fields in the order in which they are evaluated. -/
def order : List Field :=
  [jobId, cron, queue, timeZone]

theorem ofKey?_of_mem_spellings {key : String} {field : Field} (h : key ∈ field.spellings) :
    ofKey? key = some field := by
  cases field <;>
    simp only [spellings, List.mem_cons, List.not_mem_nil, or_false] at h <;>
    rcases h with rfl | rfl <;> decide

theorem ofKey?_eq_some_iff {key : String} {field : Field} :
    ofKey? key = some field ↔ key ∈ field.spellings := by
  refine ⟨fun h => ?_, ofKey?_of_mem_spellings⟩
  unfold ofKey? at h
  split_ifs at h with hjobId hcron hqueue htimeZone
  all_goals
    obtain rfl := Option.some.inj h
    simp_all [spellings]

theorem ofKey?_eq_none_iff {key : String} :
    ofKey? key = none ↔ ∀ field : Field, key ∉ field.spellings := by
  rw [Option.eq_none_iff_forall_ne_some]
  exact forall_congr' fun field => not_congr ofKey?_eq_some_iff

end Field

/-! ## Lists of arguments -/

namespace Argument

def isNamed : Argument α → Bool
  | positional _ => false
  | named _ _ => true

/-- Whether the argument has a key of the field. -/
def isOf (field : Field) : Argument α → Bool
  | positional _ => false
  | named key _ => key ∈ field.spellings

end Argument

/-- Named arguments with some keys and values. -/
def namedAll (pairs : List (String × α)) : List (Argument α) :=
  pairs.map fun pair => .named pair.1 pair.2

/-- All arguments are named by keys that are known, and fill these fields with these values. -/
def Names (arguments : List (Argument α)) (filled : List (Field × α)) : Prop :=
  List.Forall₂ (fun argument given => ∃ key ∈ given.1.spellings, argument = .named key given.2)
    arguments filled

theorem Names.isNamed {arguments : List (Argument α)} {filled : List (Field × α)}
    (h : Names arguments filled) : ∀ argument ∈ arguments, argument.isNamed = true := by
  induction h with
  | nil => exact List.forall_mem_nil _
  | cons hgiven _ ih =>
    obtain ⟨key, -, rfl⟩ := hgiven
    exact List.forall_mem_cons.2 ⟨rfl, ih⟩

theorem Names.mem_iff {arguments : List (Argument α)} {filled : List (Field × α)}
    (h : Names arguments filled) {field : Field} {value : α} :
    (field, value) ∈ filled ↔ ∃ key ∈ field.spellings, .named key value ∈ arguments := by
  induction h with
  | nil => simp
  | @cons argument given arguments filled hgiven _ ih =>
    obtain ⟨key, hkey, rfl⟩ := hgiven
    rw [List.mem_cons, ih]
    constructor
    · rintro (rfl | ⟨key', hkey', hmem⟩)
      · exact ⟨key, hkey, List.mem_cons_self⟩
      · exact ⟨key', hkey', List.mem_cons_of_mem _ hmem⟩
    · rintro ⟨key', hkey', hmem⟩
      rcases List.mem_cons.1 hmem with heq | hmem
      · obtain ⟨rfl, rfl⟩ := Argument.named.inj heq
        have hfield : field = given.1 := Option.some.inj <|
          (Field.ofKey?_of_mem_spellings hkey').symm.trans (Field.ofKey?_of_mem_spellings hkey)
        exact .inl (Prod.ext hfield rfl)
      · exact .inr ⟨key', hkey', hmem⟩

/-- The arguments give a field a value: by a name, or by their places if they have no names. -/
inductive GivesValue : List (Argument α) → Field → α → Prop
  | named {arguments : List (Argument α)} {key : String} {field : Field} {value : α}
      (hnamed : ∀ argument ∈ arguments, argument.isNamed = true)
      (hmem : Argument.named key value ∈ arguments) (hkey : key ∈ field.spellings) :
      GivesValue arguments field value
  | onlyCron (cron : α) : GivesValue [.positional cron] .cron cron
  | jobId (jobId cron : α) : GivesValue [.positional jobId, .positional cron] .jobId jobId
  | cron (jobId cron : α) : GivesValue [.positional jobId, .positional cron] .cron cron

/-- Arguments that cannot be sorted into fields, whatever their values. -/
inductive IllFormed (arguments : List (Argument α)) : Prop
  | mixed (hnamed : ∃ argument ∈ arguments, argument.isNamed = true)
      (hplaced : ∃ argument ∈ arguments, argument.isNamed = false)
  | arity (hplaced : ∀ argument ∈ arguments, argument.isNamed = false)
      (hone : arguments.length ≠ 1) (htwo : arguments.length ≠ 2)
  | unknownKey (hnamed : ∀ argument ∈ arguments, argument.isNamed = true)
      (hkey : ∃ argument ∈ arguments, ∀ field, argument.isOf field = false)
  | fieldTwice (hnamed : ∀ argument ∈ arguments, argument.isNamed = true)
      (htwice : ∃ field, 2 ≤ arguments.countP (Argument.isOf field))
  | noCron (hnamed : ∀ argument ∈ arguments, argument.isNamed = true)
      (hcron : ∀ argument ∈ arguments, argument.isOf .cron = false)

theorem IllFormed.perm {arguments arguments' : List (Argument α)} (h : IllFormed arguments)
    (hperm : arguments.Perm arguments') : IllFormed arguments' := by
  have hmem : ∀ {argument}, argument ∈ arguments ↔ argument ∈ arguments' := hperm.mem_iff
  cases h with
  | mixed hnamed hplaced =>
    simp only [hmem] at hnamed hplaced
    exact .mixed hnamed hplaced
  | arity hplaced hone htwo =>
    simp only [hmem] at hplaced
    rw [hperm.length_eq] at hone htwo
    exact .arity hplaced hone htwo
  | unknownKey hnamed hkey =>
    simp only [hmem] at hnamed hkey
    exact .unknownKey hnamed hkey
  | fieldTwice hnamed htwice =>
    simp only [hmem, hperm.countP_eq] at hnamed htwice
    exact .fieldTwice hnamed htwice
  | noCron hnamed hcron =>
    simp only [hmem] at hnamed hcron
    exact .noCron hnamed hcron

/-! ## Shapes -/

theorem isNamed_of_mem_namedAll {pairs : List (String × α)} {argument : Argument α}
    (h : argument ∈ namedAll pairs) : argument.isNamed = true := by
  obtain ⟨pair, -, rfl⟩ := List.mem_map.1 h
  rfl

theorem positional_not_mem {arguments : List (Argument α)}
    (hnamed : ∀ argument ∈ arguments, argument.isNamed = true) (value : α) :
    Argument.positional value ∉ arguments := by
  intro hmem
  cases hnamed _ hmem

theorem exists_namedAll {arguments : List (Argument α)}
    (h : ∀ argument ∈ arguments, argument.isNamed = true) :
    ∃ pairs, arguments = namedAll pairs := by
  induction arguments with
  | nil => exact ⟨[], rfl⟩
  | cons argument arguments ih =>
    obtain ⟨hfirst, hrest⟩ := List.forall_mem_cons.1 h
    obtain ⟨pairs, rfl⟩ := ih hrest
    cases argument with
    | positional value => cases hfirst
    | named key value => exact ⟨(key, value) :: pairs, rfl⟩

theorem exists_positional {arguments : List (Argument α)}
    (h : ∀ argument ∈ arguments, argument.isNamed = false) :
    ∃ values : List α, arguments = values.map .positional := by
  induction arguments with
  | nil => exact ⟨[], rfl⟩
  | cons argument arguments ih =>
    obtain ⟨hfirst, hrest⟩ := List.forall_mem_cons.1 h
    obtain ⟨values, rfl⟩ := ih hrest
    cases argument with
    | positional value => exact ⟨value :: values, rfl⟩
    | named key value => cases hfirst

/-- Arguments are all positional, or all named, or mixed. -/
theorem shape_cases (arguments : List (Argument α)) :
    (∃ values : List α, arguments = values.map .positional) ∨
      (∃ pairs, pairs ≠ [] ∧ arguments = namedAll pairs) ∨
      ((∃ argument ∈ arguments, argument.isNamed = true) ∧
        ∃ argument ∈ arguments, argument.isNamed = false) := by
  by_cases hplaced : ∀ argument ∈ arguments, argument.isNamed = false
  · exact .inl (exists_positional hplaced)
  by_cases hnamed : ∀ argument ∈ arguments, argument.isNamed = true
  · obtain ⟨pairs, rfl⟩ := exists_namedAll hnamed
    refine .inr (.inl ⟨pairs, ?_, rfl⟩)
    rintro rfl
    exact hplaced (by simp [namedAll])
  · refine .inr (.inr ⟨?_, ?_⟩)
    · simpa using hplaced
    · simpa using hnamed

theorem pairs_namedAll (pairs : List (String × α)) :
    (namedAll pairs).filterMap Argument.pair? = pairs := by
  induction pairs with
  | nil => rfl
  | cons pair pairs ih => simpa [namedAll, Argument.pair?] using ih

theorem classify_namedAll {pairs : List (String × α)} (h : pairs ≠ []) :
    ArgumentShape.classify (namedAll pairs) = .ok (.named pairs) := by
  have hlength : pairs.length = (namedAll pairs).length := by simp [namedAll]
  simp [ArgumentShape.classify, pairs_namedAll, h, hlength]

theorem classify_positional (values : List α) :
    ArgumentShape.classify (values.map .positional) = .ok (.positional values) := by
  have hpairs : (values.map Argument.positional).filterMap Argument.pair? = [] := by
    simp [List.filterMap_eq_nil_iff, Argument.pair?]
  have hvalues : (values.map Argument.positional).filterMap Argument.value? = values := by
    simp [List.filterMap_map, Function.comp_def, Argument.value?]
  simp [ArgumentShape.classify, hpairs, hvalues]

theorem length_pairs_lt {arguments : List (Argument α)}
    (h : ∃ argument ∈ arguments, argument.isNamed = false) :
    (arguments.filterMap Argument.pair?).length < arguments.length := by
  obtain ⟨argument, hmem, hplaced⟩ := h
  obtain ⟨before, after, rfl⟩ := List.append_of_mem hmem
  have hnone : argument.pair? = none := by
    cases argument with
    | positional value => rfl
    | named key value => cases hplaced
  have hbefore := List.length_filterMap_le Argument.pair? before
  have hafter := List.length_filterMap_le Argument.pair? after
  simp only [List.filterMap_append, List.filterMap_cons, hnone, List.length_append,
    List.length_cons]
  omega

theorem classify_mixed {arguments : List (Argument α)}
    (hnamed : ∃ argument ∈ arguments, argument.isNamed = true)
    (hplaced : ∃ argument ∈ arguments, argument.isNamed = false) :
    ArgumentShape.classify arguments = .error .mixedArguments := by
  have hne : arguments.filterMap Argument.pair? ≠ [] := by
    obtain ⟨argument, hmem, hargument⟩ := hnamed
    cases argument with
    | positional value => cases hargument
    | named key value =>
      exact List.ne_nil_of_mem (List.mem_filterMap.2 ⟨_, hmem, rfl⟩ : (key, value) ∈ _)
  have hlength := Nat.ne_of_lt (length_pairs_lt hplaced)
  simp only [ArgumentShape.classify, List.isEmpty_iff, hne, hlength, if_false]

end JobRoster
