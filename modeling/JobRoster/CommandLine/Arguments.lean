import JobRoster.Files.FilePath
import JobRoster.Settings.Basic

/-!
# Command-line arguments

Reads the arguments of the program. Every option is given once at most, save the one that asks for
more logging; there are no arguments besides options.
-/

namespace JobRoster.CommandLine

open Files

/-- What the command line asks for. -/
structure Request where
  manifestPath : FilePath := ⟨"Cargo.toml"⟩
  outDir : Option FilePath := none
  overrides : Overrides := {}
  /-- How much more logging is asked for. -/
  verbosity : Nat := 0
deriving DecidableEq, Repr

/-- What is to be done. -/
inductive Command where
  | run (request : Request)
  | showHelp
  | showVersion
deriving DecidableEq, Repr

/-- Why arguments cannot be used. Options are given as the usage shows them. -/
inductive UsageError where
  | unexpected (argument : String)
  | missingValue (option : String)
  | unwantedValue (option value : String)
  | repeated (option : String)
deriving DecidableEq, Repr

def UsageError.message : UsageError → String
  | unexpected argument => s!"unexpected argument '{argument}' found"
  | missingValue option => s!"a value is required for '{option}' but none was supplied"
  | unwantedValue option value =>
    s!"unexpected value '{value}' for '{option}' found; no more were expected"
  | repeated option => s!"the argument '{option}' cannot be used multiple times"

/-- Whether the usage is shown along with the error. -/
def UsageError.showsUsage : UsageError → Bool
  | missingValue _ => false
  | _ => true

/-! ## Options -/

/-- The options that take a value. -/
inductive ValueOption where
  | manifestPath
  | outDir
  | marker
  | registry
  | jobTrait
  | output
deriving DecidableEq, Repr

namespace ValueOption

def name : ValueOption → String
  | manifestPath => "--manifest-path"
  | outDir => "--out-dir"
  | marker => "--marker"
  | registry => "--registry"
  | jobTrait => "--job-trait"
  | output => "--output"

def valueName : ValueOption → String
  | manifestPath => "MANIFEST_PATH"
  | outDir => "OUT_DIR"
  | marker => "MARKER"
  | registry => "REGISTRY"
  | jobTrait => "JOB_TRAIT"
  | output => "OUTPUT"

/-- The option as the usage shows it. -/
def shown (option : ValueOption) : String :=
  option.name ++ " <" ++ option.valueName ++ ">"

def all : List ValueOption :=
  [manifestPath, outDir, marker, registry, jobTrait, output]

def ofName? (text : String) : Option ValueOption :=
  all.find? (·.name = text)

/-- Whether the value is a path, which cannot be empty. -/
def isPath : ValueOption → Bool
  | manifestPath | outDir => true
  | _ => false

/-- The request with the option's value. -/
def set (request : Request) (value : String) : ValueOption → Request
  | manifestPath => { request with manifestPath := ⟨value⟩ }
  | outDir => { request with outDir := some ⟨value⟩ }
  | marker => { request with overrides := { request.overrides with marker := some value } }
  | registry => { request with overrides := { request.overrides with registry := some value } }
  | jobTrait => { request with overrides := { request.overrides with jobTrait := some value } }
  | output => { request with overrides := { request.overrides with output := some value } }

end ValueOption

/-- The options that take no value. -/
inductive Flag where
  | withOptions
  | verbose
  | help
  | version
deriving DecidableEq, Repr

namespace Flag

def name : Flag → String
  | withOptions => "--with-options"
  | verbose => "--verbose"
  | help => "--help"
  | version => "--version"

def all : List Flag :=
  [withOptions, verbose, help, version]

def ofName? (text : String) : Option Flag :=
  all.find? (·.name = text)

/-- The flag of a letter behind a single dash. -/
def ofLetter? : Char → Option Flag
  | 'v' => some verbose
  | 'h' => some help
  | 'V' => some version
  | _ => none

end Flag

/-! ## Reading -/

/-- The arguments read so far: the request, and the names of the options that were given. -/
structure Progress where
  request : Request
  seen : List String

/-- Marks an option as given, unless it was given before. -/
def Progress.see (progress : Progress) (option : String) : Except UsageError Progress :=
  if progress.seen.contains option then .error (.repeated option)
  else .ok { progress with seen := option :: progress.seen }

/-- An argument split at its first equals sign. -/
def splitValue (argument : String) : String × Option String :=
  let cs := argument.toList
  match cs.dropWhile (· ≠ '=') with
  | [] => (argument, none)
  | _ :: value => (String.ofList (cs.takeWhile (· ≠ '=')), some (String.ofList value))

/-- Whether an argument can be an option's value. One that starts as an option cannot. -/
def isValue (argument : String) : Bool :=
  argument = "-" || argument.toList.head? ≠ some '-'

/-- The progress with an option's value. -/
def addValue (progress : Progress) (option : ValueOption) (value : String) :
    Except UsageError Progress := do
  if option.isPath && value.isEmpty then throw (.missingValue option.shown)
  let progress ← progress.see option.shown
  return { progress with request := option.set progress.request value }

def addWithOptions (progress : Progress) : Except UsageError Progress := do
  let progress ← progress.see Flag.withOptions.name
  let request := progress.request
  let overrides := { request.overrides with template := some .withOptions }
  return { progress with request := { request with overrides } }

def addVerbosity (progress : Progress) (count : Nat) : Progress :=
  let request := progress.request
  { progress with request := { request with verbosity := request.verbosity + count } }

/-- What letters behind a single dash come to, up to the first that asks for a text to be shown. -/
def readShort : Progress → List Char → Except UsageError (Progress ⊕ Command)
  | progress, [] => .ok (.inl progress)
  | progress, c :: cs =>
    match Flag.ofLetter? c with
    | some .verbose => readShort (addVerbosity progress 1) cs
    | some .help => .ok (.inr .showHelp)
    | some .version => .ok (.inr .showVersion)
    | _ => .error (.unexpected (String.ofList ['-', c]))

/-- Reads the arguments that are left. -/
def readFrom : Progress → List String → Except UsageError Command
  | progress, [] => .ok (.run progress.request)
  | progress, argument :: arguments =>
    match argument.toList with
    | '-' :: '-' :: _ :: _ =>
      let (name, value) := splitValue argument
      match ValueOption.ofName? name, value with
      | some option, some value => do
        readFrom (← addValue progress option value) arguments
      | some option, none =>
        match arguments with
        | value :: arguments =>
          if isValue value then do readFrom (← addValue progress option value) arguments
          else .error (.missingValue option.shown)
        | [] => .error (.missingValue option.shown)
      | none, value =>
        match Flag.ofName? name, value with
        | none, _ => .error (.unexpected argument)
        | some _, some value => .error (.unwantedValue name value)
        | some .withOptions, none => do readFrom (← addWithOptions progress) arguments
        | some .verbose, none => readFrom (addVerbosity progress 1) arguments
        | some .help, none => .ok .showHelp
        | some .version, none => .ok .showVersion
    | ['-', '-'] =>
      match arguments with
      | [] => .ok (.run progress.request)
      | extra :: _ => .error (.unexpected extra)
    | '-' :: c :: cs => do
      match ← readShort progress (c :: cs) with
      | .inl progress => readFrom progress arguments
      | .inr command => return command
    | _ => .error (.unexpected argument)

/-- What the arguments of the program ask for. -/
def read (arguments : List String) : Except UsageError Command :=
  readFrom ⟨{}, []⟩ arguments

end JobRoster.CommandLine
