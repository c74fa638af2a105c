import JobRoster.Syntax.Parser
import JobRoster.Syntax.Tree

/-!
# The grammar as an open recursion

The rules of the grammar refer to one another in circles. A rule is therefore written over a
`Grammar`, the parsers it may refer to, and the circle is closed elsewhere by nesting the rules as
deep as the input needs. A rule refers to the grammar for what follows a token it has read, or for
what is inside a group, so the number of tokens bounds the depth.
-/

namespace JobRoster.Syntax

/-- The parts of speech that a rule may refer to. -/
inductive Symbol where
  /-- An expression. Where a block follows, it may not hold a struct literal outside brackets. -/
  | expr (allowStruct : Bool)
  /-- An expression that ends as soon as it is a whole statement. -/
  | early
  /-- An expression without binary operators. -/
  | unary (allowStruct : Bool)
  /-- The operators after an expression that bind at least as tightly as given. -/
  | operators (left : Expr) (allowStruct : Bool) (atLeast : Precedence)
  /-- A type. After `&`, for one, it may not be a sum of bounds. -/
  | type (allowPlus : Bool)
  | genericParam
  | genericArgument
  | pattern
  | statements
  | item
  /-- A tree of a `use` item; at the top it may start at a crate. The tree is missing if some part
      of it does. -/
  | useTree (allowCrateRoot : Bool)
  | namedFields

/-- What a part of speech parses to. -/
abbrev Symbol.Node : Symbol → Type
  | expr _ | early | unary _ | operators _ _ _ => Expr
  | type _ => Ty
  | genericParam | genericArgument => Unit
  | pattern => Pattern
  | statements => List Stmt
  | item => Item
  | useTree _ => Option UseTree
  | namedFields => Unit

/-- A parser for each part of speech. -/
abbrev Grammar : Type :=
  (symbol : Symbol) → Parser symbol.Node

end JobRoster.Syntax
