import JobRoster.Declaration.Declarations
import JobRoster.Job.Arguments

/-!
# Extraction

Finds the declarations that may carry a marker, and reads the job off one that does. The first is a
cheap test of names; only the second asks for symbols and constants.
-/

namespace JobRoster

variable {δ α ε σ : Type}

/-! ## Candidates -/

/-- Whether a declaration has no parameters and an attribute of the marker's short name. -/
def isCandidate (host : Declarations δ α ε σ) (shortName : String) (decl : δ) : Bool :=
  host.generics decl = 0 && (host.attributes decl).any (host.shortName · = shortName)

/-- The declarations worth extracting, in their order. -/
def candidates (host : Declarations δ α ε σ) (shortName : String) : List δ :=
  host.decls.filter (isCandidate host shortName)

/-! ## Markers -/

/-- How a declaration stands to the marker. -/
inductive Marking (α : Type) where
  /-- Nothing on it denotes the marker, or it is no type that can be registered. -/
  | unmarked
  | repeated
  | marked (attr : α)
deriving DecidableEq, Repr

/-- The attributes of a declaration that denote the marker. -/
def markersOf (host : Declarations δ α ε σ) (marker : σ) (decl : δ) : List α :=
  (host.attributes decl).filter (host.denotes marker)

def marking (host : Declarations δ α ε σ) (marker : Option σ) (decl : δ) : Marking α :=
  match marker with
  | none => .unmarked
  | some marker =>
    if !(host.kind decl).isConcrete || host.generics decl > 0 then .unmarked
    else
      match markersOf host marker decl with
      | [] => .unmarked
      | [attr] => .marked attr
      | _ :: _ :: _ => .repeated

/-! ## Jobs -/

/-- The text that an argument stands for. -/
def constantText (host : Declarations δ α ε σ) : Evaluator ε := fun field e =>
  match host.constant? e with
  | some (.str text) => .ok text
  | some (.other kind text) => .error (.notAString field.name kind text)
  | none => .error (.nonConstant field.name (host.display e))

/-- The job of a declaration whose one marker has these arguments, if they can be read. -/
def jobOfArguments (host : Declarations δ α ε σ) (decl : δ)
    (read : Except String (List (Argument ε))) : Except Fault Job := do
  let arguments ← read.mapError .malformedArguments
  let shape ← ArgumentShape.classify arguments
  let job ← normalize (host.identity decl) (host.location decl) shape (constantText host)
  match host.typePath? decl with
  | some path => .ok (job.withTypePath path)
  | none => .error .unreachable

/-! ## Extraction -/

/-- Extraction that has the arguments of attributes read by an action. -/
def extractReading {m : Type → Type} [Monad m] (host : Declarations δ α ε σ)
    (read : α → m (Except String (List (Argument ε)))) (marker : Option σ) (decl : δ) :
    m (Except Diagnostic (Option Job)) :=
  let diagnose (fault : Fault) : Diagnostic := ⟨host.identity decl, host.location decl, fault⟩
  match marking host marker decl with
  | .unmarked => pure (.ok none)
  | .repeated => pure (.error (diagnose .duplicateMarker))
  | .marked attr => do
    let arguments ← read attr
    pure ((jobOfArguments host decl arguments).mapError diagnose |>.map some)

/-- The job of a declaration, if the marker is meant for it. -/
def extract (host : Declarations δ α ε σ) (marker : Option σ) (decl : δ) :
    Except Diagnostic (Option Job) :=
  Id.run (extractReading host (fun attr => pure (host.arguments attr)) marker decl)

/-- Reads the arguments of an attribute, and notes of which. -/
def readNoting (host : Declarations δ α ε σ) (attr : α) :
    StateM (List α) (Except String (List (Argument ε))) := fun noted =>
  (host.arguments attr, noted ++ [attr])

/-- The attributes whose arguments extraction reads, in their order. -/
def attributesRead (host : Declarations δ α ε σ) (marker : Option σ) (decl : δ) : List α :=
  ((extractReading host (readNoting host) marker decl).run []).2

/-- Whether extracting a declaration reads the arguments of an attribute. -/
def readsArguments (host : Declarations δ α ε σ) (marker : Option σ) (decl : δ) : Bool :=
  !(attributesRead host marker decl).isEmpty

end JobRoster
