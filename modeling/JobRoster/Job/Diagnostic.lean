import JobRoster.Declaration.Basic

/-!
# Diagnostics

What can be wrong with the marker of a declaration, and how it is reported.
-/

namespace JobRoster

/-- A fault of one marker. -/
inductive Fault where
  | positionalArity (count : Nat)
  | missingCron
  | emptyCron
  | nonConstant (argument expr : String)
  | notAString (argument : String) (found : LiteralKind) (text : String)
  | unknownArgument (key : String)
  | duplicateArgument (key : String)
  | mixedArguments
  | duplicateMarker
  | malformedArguments (detail : String)
  | unreachable
deriving DecidableEq, Repr

/-- The fault in words. -/
def Fault.message : Fault → String
  | positionalArity count =>
    s!"expected 1 positional argument (cron) or 2 (job_id, cron), found {count}"
  | missingCron => "missing required `cron` argument"
  | emptyCron => "`cron` must not be empty"
  | nonConstant argument expr =>
    s!"argument `{argument}` is not a compile-time constant string: `{expr}`"
  | notAString argument found text =>
    s!"argument `{argument}` must be a string, found {found.word} `{text}`"
  | unknownArgument key =>
    s!"unknown argument `{key}` (expected job_id, cron, queue or time_zone)"
  | duplicateArgument key => s!"argument `{key}` given more than once"
  | mixedArguments => "positional and named arguments cannot be mixed"
  | duplicateMarker => "marker attribute applied more than once"
  | malformedArguments detail => s!"malformed argument list: {detail}"
  | unreachable =>
    "type cannot be named from the crate root; make it and its modules visible or re-export it"

/-- A fault with the declaration that has it. -/
structure Diagnostic where
  declaration : String
  location : Location
  fault : Fault
deriving DecidableEq, Repr

namespace Diagnostic

def message (diagnostic : Diagnostic) : String :=
  s!"{diagnostic.location.text}: `{diagnostic.declaration}`: {diagnostic.fault.message}"

/-- Diagnostics are ordered by location, then by declaration. -/
def compare (a b : Diagnostic) : Ordering :=
  (a.location.compare b.location).then (Ord.compare a.declaration b.declaration)

end Diagnostic

end JobRoster
