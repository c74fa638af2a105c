import JobRoster.Declaration.Basic
import JobRoster.Syntax.Token

/-!
# Syntax trees

The trees that a source file parses to. Items are kept as far as the crate model looks at them;
types, patterns and the inner structure of most expressions are only recognised, and a tree then
records no more than what decides how the text after it is read.
-/

namespace JobRoster.Syntax

/-! ## Paths and types -/

/-- Arguments behind a path segment. -/
inductive SegmentArguments where
  | none
  | angled
  /-- Arguments in parentheses; whether a result type follows that ends in a braced macro call. -/
  | parenthesized (endsInBrace : Bool)
deriving DecidableEq, Repr

structure PathSegment where
  ident : Ident
  arguments : SegmentArguments
deriving DecidableEq, Repr

structure Path where
  /-- Whether the path is written with `::` before its first segment. -/
  leadingColon : Bool
  segments : List PathSegment
deriving DecidableEq, Repr

namespace Path

/-- Whether no segment has arguments. -/
def isPlain (path : Path) : Bool :=
  path.segments.all fun segment => segment.arguments = .none

/-- The only segment of a path that is a bare identifier. -/
def ident? (path : Path) : Option Ident :=
  match path.leadingColon, path.segments with
  | false, [⟨ident, .none⟩] => some ident
  | _, _ => none

/-- Whether a path is the given word, not marked as raw. -/
def isWord (path : Path) (word : String) : Bool :=
  path.ident?.any fun ident => ident.text = word

def endsInBrace (path : Path) : Bool :=
  match path.segments.getLast? with
  | some ⟨_, .parenthesized endsInBrace⟩ => endsInBrace
  | _ => false

end Path

/-- A type, by what it means for the text around it. -/
inductive Ty where
  /-- A path without a qualified self type. -/
  | named (path : Path)
  | parenthesized
  /-- Bounds joined by `+` without `dyn`; `single` when it is one bound and nothing after it. -/
  | traitSum (single endsInBrace : Bool)
  | other (endsInBrace : Bool)
deriving DecidableEq, Repr

/-- Whether the last token of a type is a braced macro call. -/
def Ty.endsInBrace : Ty → Bool
  | named path => path.endsInBrace
  | parenthesized => false
  | traitSum _ endsInBrace => endsInBrace
  | other endsInBrace => endsInBrace

/-- A pattern. A range that is open at one end is told apart, with the line of its dots. -/
inductive Pattern where
  | openRange (line : Nat)
  | other
deriving DecidableEq, Repr

/-! ## Expressions -/

/-- How tightly an operator binds, the loosest first. -/
inductive Precedence where
  | jump
  | assign
  | range
  | or
  | and
  | letCondition
  | compare
  | bitOr
  | bitXor
  | bitAnd
  | shift
  | sum
  | product
  | cast
deriving DecidableEq, Repr

def Precedence.rank : Precedence → Nat
  | jump => 0
  | assign => 1
  | range => 2
  | or => 3
  | and => 4
  | letCondition => 5
  | compare => 6
  | bitOr => 7
  | bitXor => 8
  | bitAnd => 9
  | shift => 10
  | sum => 11
  | product => 12
  | cast => 13

structure MacroCall where
  path : Path
  delimiter : Delimiter
  body : List Token
  /-- The line of the closing delimiter. -/
  close : Nat
deriving Repr

inductive Expr where
  | literal (value : Literal)
  /-- `qualified` when the path starts from a type in angle brackets. -/
  | path (qualified : Bool) (path : Path)
  | macroCall (call : MacroCall)
  | parenthesized (inner : Expr)
  | assign (target value : Expr)
  | binary (precedence : Precedence) (left right : Expr)
  | call (callee : Expr) (arguments : List Expr)
  | methodCall (receiver : Expr) (method : Ident) (arguments : List Expr)
  | reference (operand : Expr)
  | field (object : Expr)
  | index (object index : Expr)
  /-- Statements in braces, with or without a label. -/
  | block
  /-- Any other expression that is a statement without a semicolon, such as `if` or `match`. -/
  | control
  | range (upper : Option Expr)
  /-- An expression that ends with another: a unary operator, a closure, a condition, a jump. -/
  | leading (operand : Expr)
  /-- Anything else; whether its last token is a closing brace. -/
  | other (endsInBrace : Bool)
deriving Repr

namespace Expr

/-- Whether the expression is a statement without a semicolon. -/
def isBlockLike : Expr → Bool
  | block | control => true
  | _ => false

def isRange : Expr → Bool
  | range _ => true
  | _ => false

/-- Whether the last token of the expression is a closing brace. -/
def endsInBrace : Expr → Bool
  | block | control => true
  | assign _ value => value.endsInBrace
  | binary _ _ right => right.endsInBrace
  | macroCall mac => mac.delimiter = .brace
  | range upper =>
    match upper with
    | some upper => upper.endsInBrace
    | none => false
  | leading operand => operand.endsInBrace
  | reference operand => operand.endsInBrace
  | other endsInBrace => endsInBrace
  | _ => false

/-- Whether a statement that is this expression, with nothing after it, lacks a semicolon. -/
def needsSemicolon : Expr → Bool
  | macroCall mac => mac.delimiter ≠ .brace
  | e => !e.isBlockLike

end Expr

/-- A statement of a block. -/
inductive Stmt where
  | binding
  | item
  | expr (value : Expr) (semicolon : Bool)
  | macroCall (call : MacroCall) (semicolon : Bool)
deriving Repr

/-! ## Attributes -/

/-- What an attribute says after its path. -/
inductive Meta where
  | word
  | list (body : List Token) (close : Nat)
  | value (value : Expr)
deriving Repr

structure Attribute where
  path : Path
  content : Meta
deriving Repr

/-! ## Items -/

inductive Visibility where
  | inherited
  | visible
  /-- Visible in the module that the path names. -/
  | restricted (path : Path)
deriving Repr

inductive UseTree where
  | path (ident : Ident) (tree : UseTree)
  | name (ident : Ident)
  | rename (ident newName : Ident)
  | glob
  | group (trees : List UseTree)
deriving Repr

/-- An implementation: the trait and the type it is for, and its functions by name and body. -/
structure Impl where
  traitPath : Option Path
  target : Ty
  functions : List (Ident × List Stmt)
deriving Repr

inductive ItemKind where
  | type (kind : TypeKind) (ident : Ident) (line generics : Nat)
  | const (ident : Ident) (value : Expr)
  /-- A type alias, a static or a function. -/
  | named (ident : Ident)
  | useTree (leadingColon : Bool) (tree : UseTree)
  | externCrate (ident : Ident) (newName : Option Ident)
  | impl (content : Impl)
  | other
deriving Repr

/-- An item. The attributes are those before it and those inside it, in this order. -/
inductive Item where
  | plain (attributes : List Attribute) (visibility : Visibility) (kind : ItemKind)
  /-- A module, with its items if they are written in place. -/
  | module (attributes : List Attribute) (visibility : Visibility) (ident : Ident)
      (content : Option (List Item))
  /-- An item that parses and means nothing here. Its attributes are not looked at. -/
  | unknown
deriving Repr

/-- A source file. -/
structure File where
  attributes : List Attribute
  items : List Item
deriving Repr

end JobRoster.Syntax
