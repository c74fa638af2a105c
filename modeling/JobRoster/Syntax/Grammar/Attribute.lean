import JobRoster.Syntax.Grammar

/-!
# Rules for attributes

An attribute is a path and what it says: nothing, a list in some delimiter that is not read yet, or
a value.
-/

namespace JobRoster.Syntax

open Syntax.Parser

/-- A path of identifiers without arguments; any word may name a segment after the first test. -/
def Path.parsePlain : Parser Path := do
  let leadingColon ← punct? "::"
  let starts (tokens : List Token) : Bool :=
    Ahead.ident tokens || Ahead.anyWord ["super", "self", "Self", "crate"] tokens
  let step (done : List PathSegment) : Parser (List PathSegment ⊕ List PathSegment) := do
    unless starts (← look) do
      fail (if done.isEmpty then "expected identifier" else "expected path segment after `::`")
    let ident ← takeAnyIdent
    let done := ⟨ident, .none⟩ :: done
    if ← punct? "::" then return .inl done else return .inr done.reverse
  let segments ← loop step []
  return ⟨leadingColon, segments⟩

/-- A path that is one word, whichever it is. -/
def Path.parseWord : Parser Path :=
  return ⟨false, [⟨← takeAnyIdent, .none⟩]⟩

namespace Attribute

/-- The value after the equals sign: a literal up to the end, or an expression. -/
def parseValue (g : Grammar) : Parser Expr := do
  let tokens ← look
  match Ahead.literal? tokens with
  | some (value, []) =>
    continueAt []
    return .literal value
  | _ =>
    if Ahead.punct "#" tokens && Ahead.group .bracket (Ahead.skip tokens) then
      fail "unexpected attribute inside of attribute"
    else g (.expr true)

/-- What an attribute holds. Its path may be the one word `unsafe`. -/
def parseContent (g : Grammar) : Parser Attribute := do
  let path ← if Ahead.word "unsafe" (← look) then Path.parseWord else Path.parsePlain
  match ← look with
  | .group _ body _ close :: tokens =>
    continueAt tokens
    return ⟨path, .list body close⟩
  | _ =>
    if ← punct? "=" then return ⟨path, .value (← parseValue g)⟩
    else return ⟨path, .word⟩

/-- Attributes of what follows them. -/
def parseOuter (g : Grammar) : Parser (List Attribute) :=
  manyWhile (Ahead.punct "#") do
    punct "#"
    inGroup .bracket (parseContent g)

/-- Attributes of what encloses them. -/
def parseInner (g : Grammar) : Parser (List Attribute) :=
  manyWhile (fun tokens => Ahead.punct "#" tokens && Ahead.punct "!" (Ahead.skip tokens)) do
    punct "#"
    punct "!"
    inGroup .bracket (parseContent g)

end Attribute

/-- Inner attributes and statements, as between the braces of a body. -/
def parseBody (g : Grammar) : Parser (List Attribute × List Stmt) :=
  inGroup .brace do
    let attributes ← Attribute.parseInner g
    return (attributes, ← g .statements)

/-- Statements in braces. -/
def parseBlock (g : Grammar) : Parser (List Stmt) :=
  inGroup .brace (g .statements)

/-- The body of a macro call, any group. -/
def parseMacroBody (path : Path) : Parser MacroCall := do
  let (delimiter, body, close) ← anyGroup
  return ⟨path, delimiter, body, close⟩

end JobRoster.Syntax
