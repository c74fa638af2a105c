import JobRoster.Syntax.Numeral
import JobRoster.Syntax.Quotation
import JobRoster.Text.Blank

/-!
# Reading tokens

`tokenize` turns the text of a source file into tokens, or names the line where that fails: at a
character that starts no token, at a closing delimiter that does not match, or at the innermost
delimiter that is never closed. A documentation comment stands for the attribute it abbreviates.
-/

namespace JobRoster.Syntax

open JobRoster.Text

namespace Lexer

def pairs : List (Delimiter × Char × Char) :=
  [(.paren, '(', ')'), (.bracket, '[', ']'), (.brace, '\x7b', '\x7d')]

/-- The delimiter that a character opens. -/
def opens? (c : Char) : Option Delimiter :=
  (pairs.find? fun (_, opening, _) => opening = c).map Prod.fst

/-- The delimiter that a character closes. -/
def closes? (c : Char) : Option Delimiter :=
  (pairs.find? fun (_, _, closing) => closing = c).map Prod.fst

/-! ## Comments -/

/-- The end of a block comment that is `depth` levels deep; comments nest. -/
def blockCommentEnd? : (depth : Nat) → List Char → Option (List Char)
  | depth, '/' :: '*' :: cs => blockCommentEnd? (depth + 1) cs
  | depth, '*' :: '/' :: cs => if depth ≤ 1 then some cs else blockCommentEnd? (depth - 1) cs
  | depth, _ :: cs => blockCommentEnd? depth cs
  | _, [] => none

/-- The text up to the end of the line, and what follows it, the line break included. -/
def takeLine : List Char → List Char × List Char
  | [] => ([], [])
  | '\n' :: cs => ([], '\n' :: cs)
  | '\r' :: '\n' :: cs => ([], '\n' :: cs)
  | c :: cs => let (text, rest) := takeLine cs; (c :: text, rest)

/-- Whether a carriage return stands without a line feed. -/
def hasBareReturn : List Char → Bool
  | [] => false
  | '\r' :: '\n' :: cs => hasBareReturn cs
  | '\r' :: _ => true
  | _ :: cs => hasBareReturn cs

inductive Comment where
  | plain
  /-- A documentation comment; an inner one documents what encloses it. -/
  | doc (inner : Bool) (text : List Char)

/-- The text of a block comment without its delimiters, and what follows it. -/
def blockComment? (cs : List Char) : Option (List Char × List Char) :=
  (blockCommentEnd? 0 cs).map fun rest =>
    let whole := cs.take (cs.length - rest.length)
    ((whole.drop 3).take (whole.length - 5), rest)

def docComment? (inner : Bool) (read : Option (List Char × List Char)) :
    Option (Comment × List Char) :=
  match read with
  | some (text, rest) => if hasBareReturn text then none else some (.doc inner text, rest)
  | none => none

/-- The comment at the start of a text. -/
def comment? (cs : List Char) : Option (Comment × List Char) :=
  match cs with
  | '/' :: '/' :: '/' :: '/' :: rest => some (.plain, (takeLine rest).2)
  | '/' :: '/' :: '/' :: rest => docComment? false (some (takeLine rest))
  | '/' :: '/' :: '!' :: rest => docComment? true (some (takeLine rest))
  | '/' :: '/' :: rest => some (.plain, (takeLine rest).2)
  | '/' :: '*' :: '*' :: '/' :: rest => some (.plain, rest)
  | '/' :: '*' :: '*' :: '*' :: _ => (blockComment? cs).map fun (_, rest) => (.plain, rest)
  | '/' :: '*' :: '*' :: _ => docComment? false (blockComment? cs)
  | '/' :: '*' :: '!' :: _ => docComment? true (blockComment? cs)
  | '/' :: '*' :: _ => (blockComment? cs).map fun (_, rest) => (.plain, rest)
  | _ => none

/-- The attribute that a documentation comment abbreviates. -/
def docAttribute (inner : Bool) (text : List Char) (line : Nat) : List Token :=
  let mark := if inner then [Token.punct '!' false line] else []
  let content :=
    [.ident (.plain "doc" (by decide)) line, .punct '=' false line,
      .literal (.str (String.ofList text)) line]
  .punct '#' false line :: (mark ++ [.group .bracket content line line])

/-! ## Single tokens -/

def isPunctuation (c : Char) : Bool :=
  "~!@#$%^&*-=+|;:,<.>/?'".toList.contains c

/-- Whether a punctuation token starts here; the slash of a comment is none. -/
def startsPunctuation : List Char → Bool
  | '/' :: '/' :: _ => false
  | '/' :: '*' :: _ => false
  | c :: _ => isPunctuation c
  | [] => false

/-- The identifier at the start of a text, marked as raw or not. -/
def namedIdent? (raw : Bool) (cs : List Char) : Option (Ident × List Char) :=
  match h : takeIdent? cs with
  | some (name, rest) =>
    if hraw : raw = true → String.ofList name ∉ unraw then
      some (⟨raw, String.ofList name, isIdentifier_of_takeIdent? h, hraw⟩, rest)
    else none
  | none => none

/-- An identifier, raw or not. -/
def identifier? : List Char → Option (Ident × List Char)
  | 'r' :: '#' :: cs => namedIdent? true cs
  | cs => namedIdent? false cs

/-- Letters after which a quote or number sign starts a literal, which then must be a whole one. -/
def literalLeads : List (List Char) :=
  ["r\"", "r#\"", "r##", "b\"", "b'", "br\"", "br#", "c\"", "cr\"", "cr#"].map String.toList

/-- The spelling that stands for code that could not be expanded. -/
def expansionError : List Char :=
  "(/*ERROR*/)".toList

/-- What a single token turns out to be. -/
inductive Leaf where
  | literal (value : Literal)
  | punct (char : Char) (joint : Bool)
  | ident (ident : Ident)

/-- A literal; tried before identifiers, since some start with a letter. -/
def literal? (cs : List Char) : Option (Literal × List Char) :=
  match quoted? cs with
  | some read => some read
  | none =>
    (Numeral.after? cs).map fun rest => (.ofNumber (cs.take (cs.length - rest.length)), rest)

/-- A punctuation character. An apostrophe must lead a lifetime, and a lifetime is not closed by
    another apostrophe. -/
def punct? : List Char → Option (Char × Bool × List Char)
  | '\'' :: cs =>
    match identifier? cs with
    | some (ident, rest) =>
      match rest with
      | '\'' :: _ => none
      | '#' :: _ => if ident.raw then some ('\'', true, cs) else none
      | _ => some ('\'', true, cs)
    | none => none
  | c :: cs => if startsPunctuation (c :: cs) then some (c, startsPunctuation cs, cs) else none
  | [] => none

/-- The single token at the start of a text. -/
def leaf? (cs : List Char) : Option (Leaf × List Char) :=
  match literal? cs with
  | some (value, rest) => some (.literal value, rest)
  | none =>
    match punct? cs with
    | some (c, joint, rest) => some (.punct c joint, rest)
    | none =>
      if literalLeads.any (·.isPrefixOf cs) then none
      else
        match identifier? cs with
        | some (ident, rest) => some (.ident ident, rest)
        | none =>
          (expansionError.isPrefixOf? cs).map fun rest =>
            (.literal (.unknown (String.ofList expansionError)), rest)

def Leaf.token (line : Nat) : Leaf → Token
  | literal value => .literal value line
  | punct c joint => .punct c joint line
  | ident name => .ident name line

/-! ## Groups -/

/-- A delimiter that is open: where, and the tokens before it, the last one first. -/
structure Frame where
  delimiter : Delimiter
  line : Nat
  before : List Token

/-- The line after a text has been read up to `rest`. -/
def lineAfter (line : Nat) (cs rest : List Char) : Nat :=
  line + (cs.count '\n' - rest.count '\n')

/-- Reads tokens until the text ends. Each step takes at least one character, so as many steps as
    there are characters are enough. -/
def run : (steps line : Nat) → List Char → List Frame → (done : List Token) →
    Except SyntaxError (List Token)
  | 0, line, _, _, _ => .error ⟨line, "input does not end"⟩
  | steps + 1, line, cs, stack, done =>
    match cs with
    | [] =>
      match stack with
      | [] => .ok done.reverse
      | frame :: _ => .error ⟨frame.line, "unclosed delimiter"⟩
    | c :: rest =>
      if isSourceBlank c then run steps (if c = '\n' then line + 1 else line) rest stack done
      else
        match comment? cs with
        | some (.plain, rest) => run steps (lineAfter line cs rest) rest stack done
        | some (.doc inner text, rest) =>
          run steps (lineAfter line cs rest) rest stack
            ((docAttribute inner text line).reverse ++ done)
        | none =>
          match if expansionError.isPrefixOf cs then none else opens? c with
          | some delimiter => run steps line rest (⟨delimiter, line, done⟩ :: stack) []
          | none =>
            match closes? c with
            | some delimiter =>
              match stack with
              | frame :: stack =>
                if frame.delimiter = delimiter then
                  run steps line rest stack
                    (.group delimiter done.reverse frame.line line :: frame.before)
                else .error ⟨line, "mismatched delimiter"⟩
              | [] => .error ⟨line, "unexpected closing delimiter"⟩
            | none =>
              match leaf? cs with
              | some (leaf, rest) =>
                let next :=
                  match leaf with
                  | .literal _ => lineAfter line cs rest
                  | _ => line
                run steps next rest stack (leaf.token line :: done)
              | none => .error ⟨line, "not a token"⟩

end Lexer

/-- The tokens of a text, without the byte order mark it may start with. -/
def tokenize (text : List Char) : Except SyntaxError (List Token) :=
  let text := dropByteOrderMark text
  Lexer.run (text.length + 1) 1 text [] []

end JobRoster.Syntax
