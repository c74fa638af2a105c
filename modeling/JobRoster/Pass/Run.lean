import JobRoster.Job.Extraction
import JobRoster.Job.Roster
import JobRoster.Pass.Cancellation
import JobRoster.Pass.Stats
import JobRoster.Unit.Sink

/-!
# Passes

One run over the declarations of a host: candidates are found and extracted, each by itself, then
their results are put together into a roster, which is rendered and published. A pass that finds no
job withdraws what an earlier one published. A cancelled pass changes nothing.
-/

namespace JobRoster

variable {δ α ε σ : Type}

/-! ## Extraction of all candidates -/

/-- What became of one candidate. `none` when the pass was seen to be cancelled before it. -/
abbrev Visit := Option Extracted

/-- Extracts the candidates, as far as the pass is not seen to be cancelled. -/
def visitAll (host : Declarations δ α ε σ) (marker : Option σ) (cancel : Cancellation)
    (found : List δ) : List Visit :=
  found.mapIdx fun i decl => if cancel.atCandidate i then none else some (extract host marker decl)

/-- The result of a visit as the roster takes it: a candidate passed over counts for nothing. -/
def Visit.extracted (visit : Visit) : Extracted :=
  visit.getD (.ok none)

/-- The counters after some visits. -/
def statsOf (scanned : Nat) (visits : List Visit) : Stats :=
  let results := visits.map Visit.extracted
  let records := (results.filterMap Extracted.job?).length
  let diagnostics := (results.filterMap Extracted.diagnostic?).length
  { scanned, records, diagnostics
    candidates := visits.length
    skipped := visits.length - records - diagnostics }

/-- How often the arguments of a candidate are read. -/
def readsOf (host : Declarations δ α ε σ) (marker : Option σ) (cancel : Cancellation)
    (found : List δ) : Nat :=
  (found.mapIdx fun i decl =>
    if cancel.atCandidate i then [] else attributesRead host marker decl).flatten.length

/-! ## From declarations to a roster -/

/-- A pass as far as the roster. -/
structure PassRun where
  stats : Stats
  /-- How often the arguments of an attribute were read. -/
  reads : Nat
  result : Except Failure (List Job)

/-- Finds, extracts and orders the jobs of a host, for a marker that may be unknown to it. -/
def runPass (settings : Settings) (host : Declarations δ α ε σ) (marker : Option σ)
    (cancel : Cancellation) : PassRun :=
  let scanned := host.decls.length
  let found := candidates host settings.markerShortName
  if found.isEmpty then ⟨⟨scanned, 0, 0, 0, 0⟩, 0, .ok []⟩
  else if marker.isNone then ⟨⟨scanned, found.length, 0, found.length, 0⟩, 0, .ok []⟩
  else if cancel.atStart then ⟨⟨scanned, found.length, 0, 0, 0⟩, 0, .error .cancelled⟩
  else
    let visits := visitAll host marker cancel found
    { stats := statsOf scanned visits
      reads := readsOf host marker cancel found
      result :=
        if cancel.afterCandidates then .error .cancelled
        else roster (visits.map Visit.extracted) }

/-! ## From declarations to a published unit -/

/-- What a pass that succeeds comes to. Without jobs there is no unit. -/
structure Outcome where
  unit : Option SourceUnit
  jobs : List Job
  stats : Stats
deriving DecidableEq, Repr

/-- What a pass does to the sink in the end. -/
inductive Publication where
  | publish (u : SourceUnit)
  | withdraw (name : String)
deriving DecidableEq, Repr

def Publication.apply {S : Type} [Sink S] : Publication → S → S × Except Failure Unit
  | publish u, sink => Sink.publish sink u
  | withdraw name, sink => Sink.withdraw sink name

/-- The unit of a roster, if there are jobs. -/
def unitOf? (settings : Settings) (moduleIdentity : String) (jobs : List Job) :
    Option SourceUnit :=
  if jobs.isEmpty then none else some (render settings moduleIdentity jobs)

/-- What is done for a unit, or for none. -/
def publicationOf (settings : Settings) : Option SourceUnit → Publication
  | some u => .publish u
  | none => .withdraw settings.output

/-- A pass up to the moment before it publishes. -/
def preparePass (settings : Settings) (host : Declarations δ α ε σ) (cancel : Cancellation) :
    Except Failure Outcome := do
  let run := runPass settings host (host.symbolNamed? settings.marker) cancel
  let jobs ← run.result
  if cancel.atPublish then throw .cancelled
  return ⟨unitOf? settings host.moduleIdentity jobs, jobs, run.stats⟩

/-- A whole pass over a host. -/
def generate {S : Type} [Sink S] (settings : Settings) (host : Declarations δ α ε σ)
    (cancel : Cancellation) (sink : S) : S × Except Failure Outcome :=
  match preparePass settings host cancel with
  | .error failure => (sink, .error failure)
  | .ok outcome =>
    let (sink, done) := (publicationOf settings outcome.unit).apply sink
    (sink, done.map fun _ => outcome)

end JobRoster
