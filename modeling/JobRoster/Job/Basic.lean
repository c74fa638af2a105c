import JobRoster.Declaration.Basic

/-!
# Jobs

A recurring job: what an annotated declaration says about when and where it runs, with every default
filled in.
-/

namespace JobRoster

structure Job where
  /-- The full path of the annotated declaration. -/
  identity : String
  /-- The path that generated code names the type by. It differs from the identity where the type is
      reached through a re-export. -/
  typePath : String
  id : String
  cron : String
  /-- Empty for the default queue. -/
  queue : String
  /-- Empty for the default time zone. -/
  timeZone : String
  location : Location
deriving DecidableEq, Repr

namespace Job

/-- A job of a declaration. Without an id, or with an empty one, it is known by the declaration's
    identity. -/
def new (identity : String) (id : Option String) (cron : String) (queue timeZone : Option String)
    (location : Location) : Job where
  identity
  typePath := identity
  id :=
    match id with
    | some id => if id.isEmpty then identity else id
    | none => identity
  cron
  queue := queue.getD ""
  timeZone := timeZone.getD ""
  location

/-- The job with another path to name its type by. -/
def withTypePath (job : Job) (path : String) : Job :=
  { job with typePath := path }

end Job

end JobRoster
