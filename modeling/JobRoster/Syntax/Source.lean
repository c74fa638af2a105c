import JobRoster.Syntax.Grammar.Stmt
import JobRoster.Syntax.Lexer

/-!
# Reading source

The readers that the rest of the library uses: a whole file, a single path or identifier, and the
arguments of an attribute or macro. Each reads all of its input or fails with a line.
-/

namespace JobRoster.Syntax

open Syntax.Parser

/-- The rule for each part of speech. -/
def Grammar.rules (g : Grammar) : Grammar
  | .expr allowStruct => Expr.parse g allowStruct
  | .early => Expr.parseEarly g
  | .unary allowStruct => Expr.parseUnary g allowStruct
  | .operators left allowStruct atLeast => Expr.parseOperators g left allowStruct atLeast
  | .type allowPlus => Ty.parse g allowPlus
  | .genericParam => parseGenericParam g
  | .genericArgument => parseGenericArgument g
  | .pattern => Pattern.parse g
  | .statements => Stmt.parseAll g
  | .item => Item.parse g
  | .useTree allowCrateRoot => UseTree.parse g allowCrateRoot
  | .namedFields => parseNamedFields g

/-- The rules nested to a depth. -/
def Grammar.nested : (depth : Nat) → Grammar
  | 0 => fun _ => fail "nested too deeply"
  | depth + 1 => fun symbol => rules (nested depth) symbol

/-- The grammar for some tokens: rules nested deeply enough for any way to group them. -/
def Grammar.for (tokens : List Token) : Grammar :=
  nested (2 * Token.sizeAll tokens + 2)

/-- The line of an error at the end of a whole text. -/
def endLine : Nat := 1

/-- Reads a text as one `p`. -/
def readText {α : Type} (p : Grammar → Parser α) (text : List Char) : Except SyntaxError α := do
  let tokens ← tokenize text
  readAll (p (Grammar.for tokens)) tokens endLine

/-! ## Files -/

/-- What follows the blanks and comments at the start of a text, of which there are at most as many
    as characters. -/
def skipBlanks : (steps : Nat) → List Char → List Char
  | 0, cs => cs
  | _ + 1, [] => []
  | steps + 1, c :: cs =>
    if JobRoster.Text.isSourceBlank c then skipBlanks steps cs
    else
      match Lexer.comment? (c :: cs) with
      | some (.plain, rest) => skipBlanks steps rest
      | _ => c :: cs

/-- The text without a first line for the shell that runs it. Two characters start one, unless an
    attribute follows them. The line break is left, so that lines count on. -/
def dropInterpreterLine (cs : List Char) : List Char :=
  match cs with
  | '#' :: '!' :: rest =>
    match skipBlanks rest.length rest with
    | '[' :: _ => cs
    | _ => cs.dropWhile (· ≠ '\n')
  | _ => cs

def File.parse (g : Grammar) : Parser File := do
  let attributes ← Attribute.parseInner g
  return ⟨attributes, ← untilEnd (g .item)⟩

/-- Reads a source file. -/
def parseFile (text : String) : Except SyntaxError File :=
  readText File.parse (dropInterpreterLine (Text.dropByteOrderMark text.toList))

/-! ## Fragments -/

/-- Reads a path, with arguments as in a type. -/
def parsePath (text : String) : Except SyntaxError Path :=
  readText (Path.parse · false) text.toList

/-- Reads an identifier that is no reserved word. -/
def parseIdent (text : String) : Except SyntaxError Ident :=
  readText (fun _ => takeIdent) text.toList

/-- Reads expressions with commas between, as an attribute or a macro call holds them. -/
def parseArguments (body : List Token) (close : Nat) : Except SyntaxError (List Expr) :=
  readAll (commaList (Grammar.for body (.expr true))) body close

/-- Reads what is inside an attribute as an attribute of its own. -/
def parseMeta (body : List Token) (close : Nat) : Except SyntaxError Attribute :=
  readAll (Attribute.parseContent (Grammar.for body)) body close

end JobRoster.Syntax
