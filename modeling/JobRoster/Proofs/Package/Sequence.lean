import JobRoster.Package.Basic
import JobRoster.Proofs.Pass.Uncancelled

/-!
# One pass after another

What a sink in memory holds after any number of passes into it, over any packages, with any
settings, cancelled or not. A pass that fails leaves no trace, and one that succeeds has the last
word on the unit that it names, and on no other.
-/

namespace JobRoster

/-! ## One pass -/

section Pass

variable {δ α ε σ : Type} {settings : Settings} {host : Declarations δ α ε σ}
  {cancel : Cancellation} {sink : MemorySink}

/-- A pass that fails has not touched the sink. -/
theorem generate_memory_of_error {failure : Failure}
    (h : (generate settings host cancel sink).2 = .error failure) :
    (generate settings host cancel sink).1 = sink := by
  rw [generate_memory_snd] at h
  rw [generate_of_error h]

/-- The outcome of a pass is made of the jobs of its roster. -/
theorem outcome_of_preparePass {outcome : Outcome}
    (h : preparePass settings host cancel = .ok outcome) :
    outcome.unit = unitOf? settings host.moduleIdentity outcome.jobs := by
  cases hresult : (runPass settings host (host.symbolNamed? settings.marker) cancel).result with
  | error failure => simp [preparePass_of_error hresult] at h
  | ok jobs =>
    rw [preparePass_of_ok hresult] at h
    split at h
    · cases h
    · obtain rfl := Except.ok.inj h
      rfl

theorem generate_memory_of_ok {outcome : Outcome}
    (h : (generate settings host cancel sink).2 = .ok outcome) :
    (generate settings host cancel sink).1 =
        ((publicationOf settings outcome.unit).apply sink).1 ∧
      outcome.unit = unitOf? settings host.moduleIdentity outcome.jobs := by
  rw [generate_memory_snd] at h
  refine ⟨?_, outcome_of_preparePass h⟩
  unfold generate
  simp only [h]

end Pass

/-! ## Publications in memory -/

/-- A publication leaves under the name of its output what it publishes, or nothing. -/
theorem get?_publication (settings : Settings) (moduleIdentity : String) (jobs : List Job)
    (sink : MemorySink) :
    ((publicationOf settings (unitOf? settings moduleIdentity jobs)).apply sink).1.get?
        settings.output =
      (unitOf? settings moduleIdentity jobs).map SourceUnit.text := by
  cases jobs with
  | nil => exact sink.get?_remove settings.output
  | cons job jobs => exact sink.get?_add (render settings moduleIdentity (job :: jobs))

/-- A publication leaves all other names alone. -/
theorem get?_publication_of_ne {settings : Settings} {name : String} (h : name ≠ settings.output)
    (moduleIdentity : String) (jobs : List Job) (sink : MemorySink) :
    ((publicationOf settings (unitOf? settings moduleIdentity jobs)).apply sink).1.get? name =
      sink.get? name := by
  cases jobs with
  | nil => exact MemorySink.get?_remove_of_ne h sink
  | cons job jobs =>
    exact MemorySink.get?_add_of_ne (u := render settings moduleIdentity (job :: jobs)) h sink

/-! ## Calls -/

/-- A pass that somebody asks for. -/
structure Call where
  package : Package
  overrides : Overrides
  cancel : Cancellation

namespace Call

/-- The name of the unit that it is about. -/
def output (call : Call) : String :=
  (call.package.settings call.overrides).output

def run (call : Call) (sink : MemorySink) : MemorySink × Except Failure Outcome :=
  call.package.generate call.overrides call.cancel sink

theorem run_of_error {call : Call} {sink : MemorySink} {failure : Failure}
    (h : (call.run sink).2 = .error failure) : (call.run sink).1 = sink := by
  unfold run at h ⊢
  cases hvalid : (call.package.settings call.overrides).validate with
  | error error => rw [Package.generate_of_invalid hvalid]
  | ok _ =>
    rw [Package.generate_of_valid hvalid] at h ⊢
    exact generate_memory_of_error h

theorem run_of_ok {call : Call} {sink : MemorySink} {outcome : Outcome}
    (h : (call.run sink).2 = .ok outcome) :
    (∀ name, name ≠ call.output → (call.run sink).1.get? name = sink.get? name) ∧
      (call.run sink).1.get? call.output = outcome.unit.map SourceUnit.text ∧
      outcome.unit = unitOf? (call.package.settings call.overrides) call.package.crate.name
        outcome.jobs := by
  unfold run at h ⊢
  cases hvalid : (call.package.settings call.overrides).validate with
  | error error =>
    rw [Package.generate_of_invalid hvalid] at h
    cases h
  | ok _ =>
    rw [Package.generate_of_valid hvalid] at h ⊢
    obtain ⟨hsink, hunit⟩ := generate_memory_of_ok h
    rw [hsink, hunit]
    refine ⟨fun name hname => ?_, ?_, rfl⟩
    · exact get?_publication_of_ne hname _ _ sink
    · exact get?_publication _ _ _ sink

/-- What a call that came to a result has left under a name. A call that failed has left nothing
    there, and neither has one that is about another unit. -/
def left? (name : String) (call : Call) : Except Failure Outcome → Option (Option String)
  | .ok outcome => if call.output = name then some (outcome.unit.map SourceUnit.text) else none
  | .error _ => none

/-- A call changes what is under a name to what it leaves there. -/
theorem get?_run (call : Call) (sink : MemorySink) (name : String) :
    (call.run sink).1.get? name = (call.left? name (call.run sink).2).getD (sink.get? name) := by
  cases hresult : (call.run sink).2 with
  | error failure => rw [run_of_error hresult, left?, Option.getD_none]
  | ok outcome =>
    obtain ⟨hothers, houtput, -⟩ := run_of_ok hresult
    by_cases hname : call.output = name
    · rw [← hname, houtput, left?, if_pos rfl, Option.getD_some]
    · rw [hothers name (Ne.symm hname), left?, if_neg hname, Option.getD_none]

end Call

/-! ## Calls one after another -/

/-- The sink after some calls, and each call with what it came to. -/
def runCalls : List Call → MemorySink → MemorySink × List (Call × Except Failure Outcome)
  | [], sink => (sink, [])
  | call :: calls, sink =>
    let (sink, result) := call.run sink
    let (sink, results) := runCalls calls sink
    (sink, (call, result) :: results)

/-- What the last of some calls that left anything under a name has left there. -/
def lastLeft? (name : String) (results : List (Call × Except Failure Outcome)) :
    Option (Option String) :=
  (results.filterMap fun (call, result) => call.left? name result).getLast?

theorem lastLeft?_cons (name : String) (call : Call) (result : Except Failure Outcome)
    (results : List (Call × Except Failure Outcome)) :
    lastLeft? name ((call, result) :: results) =
      (lastLeft? name results).or (call.left? name result) := by
  unfold lastLeft?
  cases hleft : call.left? name result with
  | none => simp [hleft]
  | some left =>
    rw [List.filterMap_cons_some (by exact hleft), List.getLast?_cons]
    cases (results.filterMap fun (call, result) => call.left? name result).getLast? <;> rfl

/-- After any calls, every name holds what the last call that succeeded with it left there, and
    what it held before if there was none. -/
theorem get?_runCalls (calls : List Call) (sink : MemorySink) (name : String) :
    (runCalls calls sink).1.get? name =
      (lastLeft? name (runCalls calls sink).2).getD (sink.get? name) := by
  -- for any sink, since the calls after the first one start from what it left
  induction calls generalizing sink with
  | nil => rfl
  | cons call calls ih =>
    simp only [runCalls, lastLeft?_cons]
    rw [ih, Call.get?_run]
    cases lastLeft? name (runCalls calls (call.run sink).1).2 <;> rfl

/-- A call that fails leaves the whole sink as it was. One that succeeds changes nothing but the
    unit that it names, which is gone if there are no jobs and else has the text that it returns.
    So after any calls, every name holds what the last call that succeeded with it left there. -/
theorem memory_after_calls :
    (∀ (call : Call) (sink : MemorySink) (failure : Failure),
      (call.run sink).2 = .error failure → (call.run sink).1 = sink) ∧
    (∀ (call : Call) (sink : MemorySink) (outcome : Outcome),
      (call.run sink).2 = .ok outcome →
      (∀ name, name ≠ call.output → (call.run sink).1.get? name = sink.get? name) ∧
      (outcome.jobs = [] → (call.run sink).1.get? call.output = none) ∧
      (outcome.jobs ≠ [] → ∃ u, outcome.unit = some u ∧ u.name = call.output ∧
        (call.run sink).1.get? call.output = some u.text)) ∧
    (∀ (calls : List Call) (sink : MemorySink) (name : String),
      (runCalls calls sink).1.get? name =
        (lastLeft? name (runCalls calls sink).2).getD (sink.get? name)) := by
  refine ⟨fun _ _ _ => Call.run_of_error, ?_, get?_runCalls⟩
  intro call sink outcome hok
  obtain ⟨hothers, houtput, hunit⟩ := Call.run_of_ok hok
  refine ⟨hothers, ?_, ?_⟩
  · intro hempty
    rw [houtput, hunit, unitOf?_eq_none_iff.mpr hempty, Option.map_none]
  · intro hjobs
    cases hu : outcome.unit with
    | none => exact absurd (unitOf?_eq_none_iff.mp (hunit ▸ hu)) hjobs
    | some u =>
      refine ⟨u, rfl, ?_, by rw [houtput, hu, Option.map_some]⟩
      rw [unitOf?_eq_some (hunit.symm.trans hu)]
      rfl

end JobRoster
