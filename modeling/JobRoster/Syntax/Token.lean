import JobRoster.Text.Identifier

/-!
# Tokens

What a source file is made of once blanks and comments are gone: identifiers, single punctuation
characters, literals, and groups between matching delimiters. Every token knows its line. An
operator of several characters is several tokens, each marked as `joint` to the next.
-/

namespace JobRoster.Syntax

/-- Why a text is not source, and the line that shows it. -/
structure SyntaxError where
  line : Nat
  message : String
deriving DecidableEq, Repr

/-- Names that are keywords also where they are marked as raw. -/
def Lexer.unraw : List String :=
  ["_", "super", "self", "Self", "crate"]

/-- An identifier or keyword. A raw one is written with a mark before its name, and is never a
    keyword. -/
structure Ident where
  raw : Bool
  name : String
  isIdentifier : Text.IsIdentifier name
  markable : raw = true → name ∉ Lexer.unraw
deriving DecidableEq, Repr

/-- A name that is not marked. -/
def Ident.plain (name : String) (isIdentifier : Text.IsIdentifier name) : Ident where
  raw := false
  name := name
  isIdentifier := isIdentifier
  markable hraw := nomatch hraw

/-- The identifier as it is written. -/
def Ident.text (ident : Ident) : String :=
  if ident.raw then "r#" ++ ident.name else ident.name

@[simp] theorem Ident.text_plain (name : String) (isIdentifier : Text.IsIdentifier name) :
    (Ident.plain name isIdentifier).text = name := rfl

inductive Delimiter where
  | paren
  | bracket
  | brace
deriving DecidableEq, Repr

/-- A literal, as far as its value matters. `bool` is written by a keyword and is no token of its
    own. -/
inductive Literal where
  | str (value : String)
  | char (value : Char)
  /-- Decimal digits of the value, and the suffix. -/
  | int (digits suffix : String)
  /-- The digits without underscores and suffix, the suffix, and the spelling. -/
  | float (digits suffix spelling : String)
  | bool (value : Bool)
  | byteChar
  | byteString
  | cString
  | unknown (spelling : String)
deriving DecidableEq, Repr

/-- The literal with a minus sign before it, where that is one literal. -/
def Literal.negate? : Literal → Option Literal
  | .int digits suffix => some (.int ("-" ++ digits) suffix)
  | .float digits suffix spelling => some (.float ("-" ++ digits) suffix ("-" ++ spelling))
  | _ => none

inductive Token where
  | ident (ident : Ident) (line : Nat)
  | punct (char : Char) (joint : Bool) (line : Nat)
  | literal (value : Literal) (line : Nat)
  /-- `line` is where the group opens, `close` where it closes. -/
  | group (delimiter : Delimiter) (content : List Token) (line close : Nat)
deriving Repr

namespace Token

def line : Token → Nat
  | ident _ line => line
  | punct _ _ line => line
  | literal _ line => line
  | group _ _ line _ => line

mutual

/-- How many tokens there are, those inside the group included. -/
def size : Token → Nat
  | ident _ _ => 1
  | punct _ _ _ => 1
  | literal _ _ => 1
  | group _ content _ _ => sizeAll content + 1

def sizeAll : List Token → Nat
  | [] => 0
  | token :: tokens => token.size + sizeAll tokens

end

end Token

end JobRoster.Syntax
