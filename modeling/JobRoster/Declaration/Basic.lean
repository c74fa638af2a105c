import JobRoster.Files.FilePath

/-!
# Declarations

The vocabulary shared by everything that knows type declarations: their kinds and places, the
arguments of their attributes, and the constants that arguments stand for.
-/

namespace JobRoster

open Files

/-- The kinds of item that declare a type. -/
inductive TypeKind where
  | struct
  | enum
  | union
  | trait
deriving DecidableEq, Repr

/-- Whether there are values of the type itself. Traits alone are abstract. -/
def TypeKind.isConcrete : TypeKind → Bool
  | trait => false
  | _ => true

def TypeKind.word : TypeKind → String
  | struct => "struct"
  | enum => "enum"
  | union => "union"
  | trait => "trait"

/-- Where a declaration is written. -/
structure Location where
  file : FilePath
  line : Nat
deriving DecidableEq, Repr

namespace Location

def text (location : Location) : String :=
  location.file.text ++ ":" ++ toString location.line

/-- Locations are ordered by file, then by line. -/
def compare (a b : Location) : Ordering :=
  (a.file.compare b.file).then (Ord.compare a.line b.line)

end Location

/-- One argument of an attribute, as written. -/
inductive Argument (α : Type) where
  | positional (value : α)
  | named (key : String) (value : α)
deriving DecidableEq, Repr

/-- The kinds of constant that are not texts. -/
inductive LiteralKind where
  | integer
  | float
  | bool
  | char
deriving DecidableEq, Repr

def LiteralKind.word : LiteralKind → String
  | integer => "integer"
  | float => "float"
  | bool => "bool"
  | char => "char"

/-- What an expression is at compile time. -/
inductive ConstValue where
  | str (value : String)
  /-- A constant that is no text, by the text it has when joined to one. -/
  | other (kind : LiteralKind) (text : String)
deriving DecidableEq, Repr

/-- The text that a constant contributes when constants are joined. -/
def ConstValue.text : ConstValue → String
  | str value => value
  | other _ text => text

end JobRoster
