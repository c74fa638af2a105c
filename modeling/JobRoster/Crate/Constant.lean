import JobRoster.Crate.ItemPath
import JobRoster.Syntax.Source
import JobRoster.Text.Quoted

/-!
# Constant expressions

The shape of an expression as far as it can be a constant: literals, paths, and calls of `concat!`
over such. Any other expression is kept as the words that a diagnostic shows for it.
-/

namespace JobRoster.Crate

open Syntax

inductive ConstExpr where
  | str (value : String)
  /-- A literal that is no text, by the text it has when joined to one. -/
  | literal (kind : LiteralKind) (text : String)
  | path (path : ItemPath)
  | concat (parts : List ConstExpr)
  /-- An expression that is never a constant. -/
  | computed (description : String)
deriving Repr

namespace ConstExpr

/-! ## Display -/

mutual

/-- The expression as diagnostics show it. -/
def display : ConstExpr → String
  | str value => Text.debugQuote value
  | literal _ text => text
  | path p => p.text
  | concat parts => "concat!(" ++ displayAll parts ++ ")"
  | computed description => description

/-- The expressions with commas between them. -/
def displayAll : List ConstExpr → String
  | [] => ""
  | [part] => part.display
  | part :: parts => part.display ++ ", " ++ displayAll parts

end

/-! ## Reading syntax trees -/

def ofLiteral : Literal → ConstExpr
  | .str value => .str value
  | .int digits _ => .literal .integer digits
  | .float digits _ _ => .literal .float digits
  | .bool value => .literal .bool (if value then "true" else "false")
  | .char value => .literal .char value.toString
  | .byteChar | .byteString | .cString => .computed "byte literal"
  | .unknown _ => .computed "literal"

/-- Whether a macro's path is that of `concat!`. -/
def isConcat (path : ItemPath) : Bool :=
  match path.segments with
  | [name] => name = "concat"
  | [library, name] => (library = "std" || library = "core") && name = "concat"
  | _ => false

/-- The expression inside any parentheses around it. -/
def unparenthesized : Expr → Expr
  | .parenthesized inner => unparenthesized inner
  | e => e

/-- The shape of an expression whose `concat!` calls nest no deeper than `depth`. -/
def ofExprWithin : (depth : Nat) → Expr → ConstExpr
  | depth, e =>
    match unparenthesized e with
    | .literal value => ofLiteral value
    | .path false p => .path (ItemPath.ofSyntax p)
    | .macroCall mac =>
      let path := ItemPath.ofSyntax mac.path
      if isConcat path then
        match depth, parseArguments mac.body mac.close with
        | depth + 1, .ok parts => .concat (parts.map fun part => ofExprWithin depth part)
        | _, _ => .computed "concat!(..)"
      else .computed (path.text ++ "!(..)")
    | .call _ _ => .computed "function call"
    | .methodCall _ _ _ => .computed "method call"
    | .binary _ _ _ => .computed "binary expression"
    | .reference _ => .computed "reference expression"
    | .block => .computed "block expression"
    | .field _ => .computed "field access"
    | .index _ _ => .computed "index expression"
    | _ => .computed "expression"

/-- How deep macro calls nest in an expression, at most: no deeper than it has tokens. -/
def nesting (e : Expr) : Nat :=
  match unparenthesized e with
  | .macroCall mac => Token.sizeAll mac.body + 1
  | _ => 0

/-- The shape of an expression. -/
def ofExpr (e : Expr) : ConstExpr :=
  ofExprWithin (nesting e) e

end ConstExpr

end JobRoster.Crate
