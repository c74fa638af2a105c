import JobRoster.Job.Basic
import JobRoster.Job.Failure

/-!
# Rosters

The jobs of a whole crate in their order, which is that of their ids and does not depend on the
order in which they were found. One diagnostic is enough to have no roster, and so are two jobs of
one id.
-/

namespace JobRoster

/-- What extracting one declaration came to: a job, nothing, or a diagnostic. -/
abbrev Extracted := Except Diagnostic (Option Job)

namespace Extracted

def job? : Extracted → Option Job
  | .ok (some job) => some job
  | _ => none

def diagnostic? : Extracted → Option Diagnostic
  | .error diagnostic => some diagnostic
  | .ok _ => none

end Extracted

/-- Jobs are ordered by id, then by the declaration they are of. -/
def Job.compare (a b : Job) : Ordering :=
  (Ord.compare a.id b.id).then (Ord.compare a.identity b.identity)

/-- The first two neighbours with one id. -/
def firstClash? : List Job → Option (Job × Job)
  | a :: b :: jobs => if a.id = b.id then some (a, b) else firstClash? (b :: jobs)
  | _ => none

/-- The jobs among the results of extraction, in order. -/
def roster (results : List Extracted) : Except Failure (List Job) :=
  match results.filterMap Extracted.diagnostic? with
  | [] =>
    let jobs := (results.filterMap Extracted.job?).mergeSort fun a b => (a.compare b).isLE
    match firstClash? jobs with
    | some (a, b) => .error (.duplicateJobId a.id a.identity b.identity)
    | none => .ok jobs
  | diagnostics => .error (.diagnostics (diagnostics.mergeSort fun a b => (a.compare b).isLE))

end JobRoster
