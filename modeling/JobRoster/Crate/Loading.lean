import JobRoster.Crate.Scope
import JobRoster.Crate.UseTree
import JobRoster.Files.Sources

/-!
# Loading

Reads a crate from its root file. A module is written in place or has a file of its own, whose path
follows from the module's name and from the file that declares it, or is given by an attribute.
-/

namespace JobRoster.Crate

open Files Syntax

/-- Why a crate cannot be loaded. -/
inductive LoadError where
  | io (path : FilePath) (error : IoError)
  | malformed (path : FilePath) (error : SyntaxError)
  /-- A module declared in a file has no file of its own. -/
  | moduleNotFound (name : String) (declaredIn : FilePath)
  /-- Module files include one another without end. -/
  | endless (path : FilePath)
deriving DecidableEq, Repr

/-! ## Names -/

/-- A package's name as paths write it. -/
def pathName (name : String) : String :=
  name.map fun c => if c = '-' then '_' else c

/-- The crates that every crate may name. -/
def implicitExterns : List String :=
  ["alloc", "core", "std"]

/-- The name, without repetition. -/
def insertSorted (name : String) : List String → List String
  | [] => [name]
  | other :: names =>
    if name < other then name :: other :: names
    else if name = other then other :: names
    else other :: insertSorted name names

/-- The names in order, each once. -/
def sortNames (names : List String) : List String :=
  names.foldl (fun sorted name => insertSorted name sorted) []

/-! ## Attributes -/

/-- Whether an attribute keeps what it stands on for tests alone. No other condition is looked
    at. -/
def isTestOnly (attr : Syntax.Attribute) : Bool :=
  attr.path.isWord "cfg" &&
    match attr.content with
    | .list body close =>
      match parseMeta body close with
      | .ok ⟨path, .word⟩ => path.isWord "test"
      | _ => false
    | _ => false

/-- The file that an attribute gives to a module. -/
def filePath? (attr : Syntax.Attribute) : Option String :=
  if attr.path.isWord "path" then
    match attr.content with
    | .value (.literal (.str path)) => some path
    | _ => none
  else none

/-- An argument. An assignment to a plain name is an argument of that name. -/
def argumentOf : Expr → Argument ConstExpr
  | .assign (.path false target) value =>
    match target.ident? with
    | some key => .named key.name (ConstExpr.ofExpr value)
    | none => .positional (.computed "expression")
  | e => .positional (ConstExpr.ofExpr e)

def argumentsOf : Meta → Except String (List (Argument ConstExpr))
  | .word => .ok []
  | .value value => .ok [.positional (ConstExpr.ofExpr value)]
  | .list body close =>
    match parseArguments body close with
    | .ok arguments => .ok (arguments.map argumentOf)
    | .error error => .error error.message

/-- The attributes that the model keeps. Documentation is dropped. -/
def attributesOf (attrs : List Syntax.Attribute) : List Attribute :=
  (attrs.filter fun attr => !attr.path.isWord "doc").map fun attr =>
    ⟨ItemPath.ofSyntax attr.path, argumentsOf attr.content⟩

/-! ## The crate as far as it is read -/

structure LoadState where
  crateName : String
  externs : List String
  macroCrates : List String
  modules : List Module
  decls : List Decl
  consts : List ConstItem
  files : List FilePath

namespace LoadState

/-- Before anything is read. -/
def start (crateName : String) (dependencies : List String) : LoadState where
  crateName
  externs := dependencies ++ implicitExterns ++ [crateName]
  macroCrates := []
  modules := []
  decls := []
  consts := []
  files := []

def finish (s : LoadState) : Crate where
  name := s.crateName
  externs := sortNames s.externs
  macroCrates := s.macroCrates
  modules := s.modules
  decls := s.decls
  consts := s.consts
  files := s.files

def modulePath (s : LoadState) (module : Nat) : List String :=
  match s.modules[module]? with
  | some m => m.path
  | none => []

/-- The canonical path of an item of a module. -/
def identityOf (s : LoadState) (module : Nat) (name : String) : String :=
  canonical s.crateName (s.modulePath module) [name]

def scopeOf (s : LoadState) (module : Nat) (visibility : Visibility) : Scope :=
  Scope.ofVisibility s.modules module visibility

/-- Adds a module; its index is the number of modules before. -/
def addModule (s : LoadState) (m : Module) : LoadState :=
  { s with modules := s.modules ++ [m] }

def modifyModule (s : LoadState) (module : Nat) (f : Module → Module) : LoadState :=
  { s with modules := s.modules.modify module f }

def addName (s : LoadState) (module : Nat) (name : String) : LoadState :=
  s.modifyModule module fun m => { m with names := m.names.insert name }

def addDecl (s : LoadState) (module : Nat) (file : FilePath) (attributes : List Syntax.Attribute)
    (visibility : Visibility) (kind : TypeKind) (name : String) (line generics : Nat) : LoadState :=
  let decl : Decl := {
    module, name, kind, generics
    identity := s.identityOf module name
    scope := s.scopeOf module visibility
    attributes := attributesOf attributes
    location := ⟨file, line⟩ }
  { s.addName module name with decls := s.decls ++ [decl] }

def addConst (s : LoadState) (module : Nat) (name : String) (value : ConstExpr) : LoadState :=
  { s.addName module name with consts := s.consts ++ [⟨module, s.identityOf module name, value⟩] }

def addBinding (s : LoadState) (module : Nat) (binding : Binding) : LoadState :=
  s.modifyModule module fun m => { m with bindings := m.bindings ++ [binding] }

def addImport (s : LoadState) (module : Nat) (scope : Scope) : Import → LoadState
  | .binding name target => s.addBinding module ⟨name, target, scope⟩
  | .glob target => s.modifyModule module fun m => { m with globs := m.globs ++ [⟨target, scope⟩] }

/-- Adds a crate named in the source, unless it is this crate under another name. -/
def addExtern (s : LoadState) (name : String) (macros : Bool) : LoadState :=
  if name = "self" then s
  else
    { s with
      externs := s.externs ++ [name]
      macroCrates := if macros then s.macroCrates ++ [name] else s.macroCrates }

/-- What a crate with a name of its own in the source is called by. -/
def externTarget (name : String) : ItemPath :=
  if name = "self" then ⟨false, ["crate"]⟩ else ⟨true, [name]⟩

/-- Adds what an item that is no module declares in `module`. -/
def addItem (s : LoadState) (module : Nat) (file : FilePath) (attributes : List Syntax.Attribute)
    (visibility : Visibility) : ItemKind → LoadState
  | .type kind ident line generics =>
    s.addDecl module file attributes visibility kind ident.name line generics
  | .const ident value => s.addConst module ident.name (ConstExpr.ofExpr value)
  | .named ident => s.addName module ident.name
  | .useTree leadingColon tree =>
    (Import.ofTree ⟨leadingColon, []⟩ tree).foldl
      (fun s leaf => s.addImport module (s.scopeOf module visibility) leaf) s
  | .externCrate ident newName =>
    let s := s.addExtern ident.name (attributes.any (·.path.isWord "macro_use"))
    match newName with
    | some newName =>
      s.addBinding module
        ⟨newName.name, externTarget ident.name, s.scopeOf module visibility⟩
    | none => s
  | .impl _ => s
  | .other => s

end LoadState

/-! ## Modules and their files -/

/-- Where items are read: the module they are in and the directories its own modules' files are
    looked for in. -/
structure ItemSite where
  module : Nat
  file : FilePath
  /-- Where a module's file is, by the module's name. -/
  childDir : FilePath
  /-- What a path given by an attribute is relative to. -/
  pathBase : FilePath
deriving DecidableEq, Repr

namespace ItemSite

/-- The site of a whole file. A file that owns its directory has its modules' files beside it, any
    other in a directory of its own name. -/
def ofFile (module : Nat) (file : FilePath) (ownsDirectory : Bool) : ItemSite where
  module
  file
  childDir := if ownsDirectory then file.parent else file.withoutExtension
  pathBase := file.parent

/-- The site of a module written in place. -/
def inside (site : ItemSite) (module : Nat) (name : String) : ItemSite where
  module
  file := site.file
  childDir := site.childDir.join name
  pathBase := site.childDir.join name

end ItemSite

/-- A module with a file of its own. -/
structure ModuleFile where
  file : FilePath
  /-- Whether the file stands for the directory it is in. -/
  ownsDirectory : Bool
deriving DecidableEq, Repr

/-- The file of a module: the one an attribute gives, else the one named for the module, else the
    one that stands for the directory named for it. -/
def moduleFile? (sources : Sources) (site : ItemSite) (name : String)
    (attributes : List Syntax.Attribute) : Option ModuleFile :=
  match attributes.findSome? filePath? with
  | some path => some ⟨site.pathBase.join path, true⟩
  | none =>
    let flat := site.childDir.join (name ++ ".rs")
    let nested := (site.childDir.join name).join "mod.rs"
    if sources.isFile flat then some ⟨flat, false⟩
    else if sources.isFile nested then some ⟨nested, true⟩
    else none

/-- Reads a module's file into a module of which all but the items is known. -/
abbrev FileLoader := ModuleFile → Module → LoadState → Except LoadError LoadState

mutual

/-- Reads an item. `load` reads the files of the modules it meets. -/
def collectItem (sources : Sources) (load : FileLoader) (site : ItemSite) (s : LoadState) :
    Item → Except LoadError LoadState
  | .plain attributes visibility kind =>
    if attributes.any isTestOnly then .ok s
    else .ok (s.addItem site.module site.file attributes visibility kind)
  | .module attributes visibility ident content =>
    if attributes.any isTestOnly then .ok s
    else
      let m := Module.new (s.modulePath site.module ++ [ident.name]) (some site.module)
        (s.scopeOf site.module visibility)
      let s := s.addName site.module ident.name
      match content with
      | some items =>
        collectItems sources load (site.inside s.modules.length ident.name) (s.addModule m) items
      | none =>
        match moduleFile? sources site ident.name attributes with
        | some file => load file m s
        | none => .error (.moduleNotFound ident.name site.file)
  | .unknown => .ok s

/-- Reads items one after another. -/
def collectItems (sources : Sources) (load : FileLoader) (site : ItemSite) (s : LoadState) :
    List Item → Except LoadError LoadState
  | [] => .ok s
  | item :: items => do
    collectItems sources load site (← collectItem sources load site s item) items

end

/-- Reads a module's file, in which files nest no deeper than `depth`. -/
def loadFile (sources : Sources) : (depth : Nat) → FileLoader
  | 0, target, _, _ => .error (.endless target.file)
  | depth + 1, target, m, s =>
    match sources.read target.file with
    | .error error => .error (.io target.file error)
    | .ok text =>
      match parseFile text with
      | .error error => .error (.malformed target.file error)
      | .ok syntaxTree =>
        let site := ItemSite.ofFile s.modules.length target.file target.ownsDirectory
        let s := { s.addModule m with files := s.files ++ [target.file] }
        collectItems sources (loadFile sources depth) site s syntaxTree.items

/-- The crate of a root file. -/
def load (sources : Sources) (crateName : String) (dependencies : List String) (root : FilePath) :
    Except LoadError Crate := do
  let s ← loadFile sources sources.depth ⟨root, true⟩ (Module.new [] none .crate)
    (LoadState.start crateName dependencies)
  return s.finish

/-- The crate of some texts with their paths. The first is the root. -/
def ofTexts (name : String) (externs : List String) (texts : List (FilePath × String)) :
    Except LoadError Crate :=
  match texts with
  | [] => .error (.moduleNotFound "crate root" FilePath.empty)
  | (root, _) :: _ => load (Sources.ofTexts texts) (pathName name) (externs.map pathName) root

end JobRoster.Crate
