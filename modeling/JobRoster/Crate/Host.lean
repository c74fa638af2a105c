import JobRoster.Crate.Folding
import JobRoster.Crate.Reference
import JobRoster.Declaration.Declarations

/-!
# A crate as a host

The declarations of a crate as a generator sees them. The paths of all attributes are resolved
first, and every canonical path that comes out is one symbol. A marker is known only where some
attribute denotes it.
-/

namespace JobRoster.Crate

/-! ## Symbols -/

/-- A canonical path, by its place in the table of symbols. -/
structure Symbol where
  index : Nat
deriving DecidableEq, Repr

/-- Canonical paths, each once. -/
structure SymbolTable where
  paths : List String
deriving DecidableEq, Repr

namespace SymbolTable

def empty : SymbolTable := ⟨[]⟩

def find? (table : SymbolTable) (path : String) : Option Symbol :=
  (table.paths.idxOf? path).map Symbol.mk

def text? (table : SymbolTable) (symbol : Symbol) : Option String :=
  table.paths[symbol.index]?

/-- The symbol of a path, and the table with it. -/
def intern (table : SymbolTable) (path : String) : SymbolTable × Symbol :=
  match table.find? path with
  | some symbol => (table, symbol)
  | none => (⟨table.paths ++ [path]⟩, ⟨table.paths.length⟩)

end SymbolTable

/-! ## Resolved declarations -/

/-- An attribute with its symbol and the module it is written in. -/
structure ResolvedAttribute where
  module : Nat
  attr : Attribute
  symbol : Option Symbol

structure ResolvedDecl where
  decl : Decl
  attributes : List ResolvedAttribute

def resolveAttribute (c : Crate) (module : Nat) (table : SymbolTable) (attr : Attribute) :
    SymbolTable × ResolvedAttribute :=
  match resolvePath c module attr.path with
  | none => (table, ⟨module, attr, none⟩)
  | some path =>
    let (table, symbol) := table.intern path
    (table, ⟨module, attr, some symbol⟩)

def resolveAttributes (c : Crate) (module : Nat) :
    SymbolTable → List Attribute → SymbolTable × List ResolvedAttribute
  | table, [] => (table, [])
  | table, attr :: attrs =>
    let (table, resolved) := resolveAttribute c module table attr
    let (table, rest) := resolveAttributes c module table attrs
    (table, resolved :: rest)

def resolveDecls (c : Crate) : SymbolTable → List Decl → SymbolTable × List ResolvedDecl
  | table, [] => (table, [])
  | table, decl :: decls =>
    let (table, attributes) := resolveAttributes c decl.module table decl.attributes
    let (table, rest) := resolveDecls c table decls
    (table, ⟨decl, attributes⟩ :: rest)

/-! ## The host -/

/-- An expression with the module it is written in. -/
structure PlacedExpr where
  module : Nat
  expr : ConstExpr

def placeArgument (module : Nat) : Argument ConstExpr → Argument PlacedExpr
  | .positional value => .positional ⟨module, value⟩
  | .named key value => .named key ⟨module, value⟩

/-- The symbol of a full path that starts with a known crate. -/
def symbolNamed? (c : Crate) (table : SymbolTable) (name : String) : Option Symbol :=
  let path := ItemPath.parse name
  match path.segments with
  | [] => none
  | root :: _ => if c.isExtern root then table.find? (Text.joinSegments path.segments) else none

/-- The declarations of a crate, with the table of the symbols that they use. -/
def hostWithTable (c : Crate) (table : SymbolTable) (decls : List ResolvedDecl) :
    Declarations ResolvedDecl ResolvedAttribute PlacedExpr Symbol where
  moduleIdentity := c.name
  decls
  kind d := d.decl.kind
  generics d := d.decl.generics
  identity d := d.decl.identity
  typePath? d := referencePath? c d.decl
  location d := d.decl.location
  attributes d := d.attributes
  shortName a := a.attr.shortName
  arguments a := a.attr.arguments.map (·.map (placeArgument a.module))
  symbol? a := a.symbol
  symbolNamed? := symbolNamed? c table
  symbolsEqual a b := a = b
  constant? e := fold c e.module e.expr
  display e := e.expr.display

/-- The table of the symbols that attributes of a crate denote. -/
def symbolTable (c : Crate) : SymbolTable :=
  (resolveDecls c SymbolTable.empty c.decls).1

/-- The declarations of a crate. -/
def host (c : Crate) : Declarations ResolvedDecl ResolvedAttribute PlacedExpr Symbol :=
  let (table, decls) := resolveDecls c SymbolTable.empty c.decls
  hostWithTable c table decls

end JobRoster.Crate
