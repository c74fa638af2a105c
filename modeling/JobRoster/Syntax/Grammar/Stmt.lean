import JobRoster.Syntax.Grammar.Item

/-!
# Rules for statements

The statements of a block: bindings, items, expressions and macro calls. A statement that is an
expression must end in a semicolon unless it ends in a block or comes last.
-/

namespace JobRoster.Syntax

open Syntax.Parser

namespace Stmt

/-- A binding; its pattern may fail to match if it says what to do then. -/
def parseBinding (g : Grammar) : Parser Stmt := do
  word "let"
  let _ ← g .pattern
  if ← punct? ":" then
    let _ ← g (.type true)
  if ← punct? "=" then
    let e ← g (.expr true)
    unless e.endsInBrace do
      if ← word? "else" then
        let _ ← parseBlock g
  punct ";"
  return .binding

/-- How a macro call at the start of a statement goes on. -/
inductive MacroForm where
  | item
  | braced (path : Path) (tokens : List Token)
  | other

/-- A macro call with a name, or with braces that nothing trails, is no expression. -/
def macroForm : Parser MacroForm := do
  match ← lookAhead (attempt do return (← Path.parsePlain, ← look)) with
  | some (path, tokens) =>
    let second := Ahead.skip tokens
    let third := Ahead.skip second
    if Ahead.punct "!" tokens then
      if Ahead.ident second || Ahead.word "try" second then return .item
      let trailed := Ahead.punct "." third && !Ahead.punct ".." third || Ahead.punct "?" third
      if Ahead.group .brace second && !trailed then return .braced path tokens
    return .other
  | none => return .other

/-- Whether an item that is no macro call starts here. -/
def startsItem (tokens : List Token) : Bool :=
  let second := Ahead.skip tokens
  let third := Ahead.skip second
  Ahead.word "pub" tokens || Ahead.word "crate" tokens && !Ahead.punct "::" second ||
    Ahead.anyWord ["extern", "use", "fn", "mod", "type", "struct", "enum", "trait", "impl",
      "macro"] tokens ||
    Ahead.word "static" tokens &&
      (Ahead.word "mut" second || Ahead.ident second &&
        !(Ahead.word "async" second && (Ahead.word "move" third || Ahead.punct "|" third))) ||
    Ahead.word "const" tokens &&
      !(Ahead.group .brace second || Ahead.word "static" second ||
        Ahead.word "async" second && !Ahead.anyWord ["unsafe", "extern", "fn"] third ||
        Ahead.word "move" second || Ahead.punct "|" second) ||
    Ahead.word "unsafe" tokens && !Ahead.group .brace second ||
    Ahead.word "async" tokens && Ahead.anyWord ["unsafe", "extern", "fn"] second ||
    Ahead.word "union" tokens && Ahead.ident second ||
    Ahead.word "auto" tokens && Ahead.word "trait" second ||
    Ahead.word "default" tokens && Ahead.anyWord ["unsafe", "impl"] second

/-- An expression, and a semicolon if one follows. -/
def parseExpr (g : Grammar) : Parser Stmt := do
  let e ← Expr.parseEarly g
  let semicolon ← punct? ";"
  match e with
  | .macroCall mac =>
    if semicolon || mac.delimiter = .brace then return .macroCall mac semicolon
    else return .expr e semicolon
  | _ => return .expr e semicolon

def parse (g : Grammar) : Parser Stmt := do
  let attributes ← Attribute.parseOuter g
  let tokens ← look
  match ← macroForm with
  | .braced path rest =>
    continueAt rest
    punct "!"
    let mac ← parseMacroBody path
    return .macroCall mac (← punct? ";")
  | form =>
    let isItem := match form with
      | .item => true
      | _ => false
    if Ahead.word "let" tokens then parseBinding g
    else if isItem || startsItem tokens then
      let _ ← Item.parseAfter g attributes
      return .item
    else parseExpr g

/-- Whether a statement must be the last one. -/
def mustBeLast : Stmt → Bool
  | .expr value semicolon => !semicolon && value.needsSemicolon
  | .macroCall mac semicolon => !semicolon && mac.delimiter ≠ .brace
  | .binding | .item => false

/-- The statements of a block, and the semicolons between them. -/
def parseAll (g : Grammar) : Parser (List Stmt) := do
  let step (done : List Stmt) : Parser (List Stmt ⊕ List Stmt) := do
    if ← punct? ";" then return .inl done
    if ← isEnd then return .inr done.reverse
    let stmt ← parse g
    if ← isEnd then return .inr (stmt :: done).reverse
    if stmt.mustBeLast then
      fail "unexpected token, expected `;`"
    return .inl (stmt :: done)
  loop step []

end Stmt

end JobRoster.Syntax
