import JobRoster.Job.Basic
import JobRoster.Settings.Basic
import JobRoster.Syntax.Source
import JobRoster.Text.Quoted

/-!
# Generated units

The source that registers a roster of jobs: a trait of one method, named after the crate, and its
implementation for the registry, which makes one call a job and returns the registry.
-/

namespace JobRoster

/-- A source file that a pass produces. -/
structure SourceUnit where
  name : String
  text : String
deriving DecidableEq, Repr

/-! ## Names -/

def extensionTrait : String := "RecurringJobRegistrationExt"

def methodStem : String := "register_recurring_jobs_from_"

def isIdentifierChar (c : Char) : Bool :=
  Text.isAsciiLetter c || Text.isAsciiDigit c || c = '_'

/-- A crate's name as part of an identifier: its letters, in lower case, its digits and underscores.
    Never empty, and never with a digit at its start. -/
def sanitizeIdentifier (name : String) : String :=
  match (name.toList.filter isIdentifierChar).map Char.toLower with
  | [] => "crate"
  | c :: cs => String.ofList (if Text.isAsciiDigit c then '_' :: c :: cs else c :: cs)

/-- The method of the generated trait. -/
def methodName (moduleIdentity : String) : String :=
  methodStem ++ sanitizeIdentifier moduleIdentity

/-- A segment as it is written in a path. A word that is no identifier by itself is marked as
    raw. -/
def pathSegment (segment : String) : String :=
  match Syntax.parseIdent segment with
  | .ok _ => segment
  | .error _ => "r#" ++ segment

/-- A path as it is written inside its own crate. The crate's name becomes the word for the
    crate. -/
def typeReference (moduleIdentity path : String) : String :=
  match Text.splitSegments path with
  | [] => "crate"
  | root :: segments =>
    let below := if root = moduleIdentity then segments else root :: segments
    Text.joinSegments ("crate" :: below.map pathSegment)

/-! ## Text -/

/-- The call that registers a job. -/
def registration (settings : Settings) (moduleIdentity : String) (job : Job) : String :=
  let type := typeReference moduleIdentity job.typePath
  let call (method : String) (arguments : List String) : String :=
    "self." ++ method ++ "::<" ++ type ++ ">(" ++
      ", ".intercalate (arguments.map Text.literal) ++ ");"
  match settings.template with
  | .basic => call settings.method [job.id, job.cron]
  | .withOptions => call settings.methodWithOptions [job.id, job.cron, job.queue, job.timeZone]

/-- The comment at the top of a unit. -/
def unitHeading (settings : Settings) (moduleIdentity : String) : String :=
  "// <auto-generated/>\n" ++
  "// Recurring job registrations for crate `" ++ moduleIdentity ++ "`.\n" ++
  "// Produced by jobgen; edits are overwritten on the next build.\n" ++
  "// Every registered type must implement `" ++ settings.jobTrait ++ "`.\n\n"

/-- The trait of a unit. -/
def unitTrait (moduleIdentity : String) : String :=
  "/// Registers every recurring job declared in this crate.\n" ++
  "pub trait " ++ extensionTrait ++ " \x7b\n" ++
  "    fn " ++ methodName moduleIdentity ++ "(&mut self) -> &mut Self;\n" ++
  "\x7d\n\n"

/-- The implementation of the trait, one line a job. -/
def unitImpl (settings : Settings) (moduleIdentity : String) (jobs : List Job) : String :=
  "impl " ++ extensionTrait ++ " for " ++ settings.registry ++ " \x7b\n" ++
  "    fn " ++ methodName moduleIdentity ++ "(&mut self) -> &mut Self \x7b\n" ++
  String.join (jobs.map fun job =>
    "        " ++ registration settings moduleIdentity job ++ "\n") ++
  "        self\n    \x7d\n\x7d\n"

/-- The unit that registers some jobs, in their order. -/
def render (settings : Settings) (moduleIdentity : String) (jobs : List Job) : SourceUnit where
  name := settings.output
  text :=
    unitHeading settings moduleIdentity ++ unitTrait moduleIdentity ++
      unitImpl settings moduleIdentity jobs

end JobRoster
