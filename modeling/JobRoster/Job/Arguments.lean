import JobRoster.Job.Basic
import JobRoster.Job.Diagnostic
import JobRoster.Text.Blank

/-!
# Marker arguments

From the arguments of a marker to a job. Arguments are all positional or all named; they are sorted
into fields first, and then the fields that are given are evaluated in a fixed order, whatever the
order in which they are written.
-/

namespace JobRoster

/-! ## Shapes -/

/-- How the arguments of a marker are written. -/
inductive ArgumentShape (α : Type) where
  | positional (values : List α)
  | named (pairs : List (String × α))
deriving DecidableEq, Repr

namespace Argument

variable {α : Type}

def value? : Argument α → Option α
  | positional value => some value
  | named _ _ => none

def pair? : Argument α → Option (String × α)
  | positional _ => none
  | named key value => some (key, value)

end Argument

namespace ArgumentShape

variable {α : Type}

/-- The shape of a list of arguments. The empty list is positional. -/
def classify (arguments : List (Argument α)) : Except Fault (ArgumentShape α) :=
  let pairs := arguments.filterMap Argument.pair?
  if pairs.isEmpty then .ok (.positional (arguments.filterMap Argument.value?))
  else if pairs.length = arguments.length then .ok (.named pairs)
  else .error .mixedArguments

end ArgumentShape

/-! ## Fields -/

/-- What a marker can say. -/
inductive Field where
  | jobId
  | cron
  | queue
  | timeZone
deriving DecidableEq, Repr

namespace Field

/-- The field that a key fills, in either spelling. -/
def ofKey? (key : String) : Option Field :=
  if key = "job_id" || key = "JobId" then some jobId
  else if key = "cron" || key = "Cron" then some cron
  else if key = "queue" || key = "Queue" then some queue
  else if key = "time_zone" || key = "TimeZone" then some timeZone
  else none

def name : Field → String
  | jobId => "job_id"
  | cron => "cron"
  | queue => "queue"
  | timeZone => "time_zone"

end Field

/-- Arguments sorted into fields. -/
structure Fields (α : Type) where
  jobId : Option α
  cron : α
  queue : Option α
  timeZone : Option α
deriving Repr

namespace Fields

variable {α : Type}

/-- The pairs with fields for their keys. -/
def assign : (filled : List (Field × α)) → List (String × α) → Except Fault (List (Field × α))
  | filled, [] => .ok filled
  | filled, (key, value) :: pairs =>
    match Field.ofKey? key with
    | none => .error (.unknownArgument key)
    | some field =>
      if filled.any (·.1 = field) then .error (.duplicateArgument field.name)
      else assign (filled ++ [(field, value)]) pairs

def find? (filled : List (Field × α)) (field : Field) : Option α :=
  (filled.find? (·.1 = field)).map (·.2)

def ofShape : ArgumentShape α → Except Fault (Fields α)
  | .positional [cron] => .ok ⟨none, cron, none, none⟩
  | .positional [jobId, cron] => .ok ⟨some jobId, cron, none, none⟩
  | .positional values => .error (.positionalArity values.length)
  | .named pairs => do
    let filled ← assign [] pairs
    match find? filled .cron with
    | some cron => .ok ⟨find? filled .jobId, cron, find? filled .queue, find? filled .timeZone⟩
    | none => .error .missingCron

/-- The fields that are given, in the order in which they are evaluated. -/
def given (fields : Fields α) : List (Field × α) :=
  (fields.jobId.map ((.jobId, ·))).toList ++ [(.cron, fields.cron)] ++
    (fields.queue.map ((.queue, ·))).toList ++ (fields.timeZone.map ((.timeZone, ·))).toList

end Fields

/-! ## Evaluation -/

/-- Gives the text of a field's value. -/
abbrev Evaluator (α : Type) := Field → α → Except Fault String

/-- A result, and the fields whose values were asked for on the way, in order. -/
structure Evaluated (β : Type) where
  asked : List Field
  result : Except Fault β

variable {α : Type}

/-- Evaluates fields one after another, up to the first that fails. -/
def evaluateFields (eval : Evaluator α) : List (Field × α) → Evaluated (List (Field × String))
  | [] => ⟨[], .ok []⟩
  | (field, value) :: fields =>
    match eval field value with
    | .error fault => ⟨[field], .error fault⟩
    | .ok text =>
      let rest := evaluateFields eval fields
      ⟨field :: rest.asked, rest.result.map ((field, text) :: ·)⟩

/-- The job that evaluated fields describe. -/
def jobOfTexts (identity : String) (location : Location) (texts : List (Field × String)) :
    Except Fault Job :=
  let cron := (Fields.find? texts .cron).getD ""
  if Text.isAllBlank cron then .error .emptyCron
  else
    .ok (Job.new identity (Fields.find? texts .jobId) cron (Fields.find? texts .queue)
      (Fields.find? texts .timeZone) location)

/-- The job that a marker of some shape describes, with the fields asked for. -/
def normalizeTracing (identity : String) (location : Location) (shape : ArgumentShape α)
    (eval : Evaluator α) : Evaluated Job :=
  match Fields.ofShape shape with
  | .error fault => ⟨[], .error fault⟩
  | .ok fields =>
    let texts := evaluateFields eval fields.given
    ⟨texts.asked, texts.result.bind (jobOfTexts identity location)⟩

/-- The job that a marker of some shape describes. -/
def normalize (identity : String) (location : Location) (shape : ArgumentShape α)
    (eval : Evaluator α) : Except Fault Job :=
  (normalizeTracing identity location shape eval).result

end JobRoster
