import JobRoster.Toml.Scanner

/-!
# Strings in configuration text

The four kinds of string. Between double quotes a backslash starts an escape; between single quotes
it does not. A string between three quotes may hold line breaks, less than three quotes in a row,
and loses a line break at its start.
-/

namespace JobRoster.Toml

open Scanner

/-- The characters of a string, and what follows it. -/
abbrev Quoted := Option (List Char × List Char)

namespace Quoted

/-- The string with one more character before it. -/
def cons (c : Char) : Quoted → Quoted
  | some (cs, rest) => some (c :: cs, rest)
  | none => none

end Quoted

/-! ## Escapes -/

def hexDigit? (c : Char) : Option Nat :=
  if '0' ≤ c && c ≤ '9' then some (c.toNat - '0'.toNat)
  else if 'a' ≤ c && c ≤ 'f' then some (c.toNat - 'a'.toNat + 10)
  else if 'A' ≤ c && c ≤ 'F' then some (c.toNat - 'A'.toNat + 10)
  else none

/-- The character of a code point in hexadecimal digits. -/
def charOfHex? (digits : List Char) : Option Char := do
  let values ← digits.mapM hexDigit?
  let code := values.foldl (fun code value => 16 * code + value) 0
  if code.isValidChar then some (Char.ofNat code) else none

/-- The character that an escape of one letter stands for. -/
def escapedChar? : Char → Option Char
  | 'b' => some '\x08'
  | 't' => some '\t'
  | 'n' => some '\n'
  | 'f' => some '\x0c'
  | 'r' => some '\r'
  | '"' => some '"'
  | '\\' => some '\\'
  | _ => none

/-- The string that goes on with what an escape stands for, if it stands for anything. -/
def Quoted.consEscaped (c : Option Char) (rest : Quoted) : Quoted :=
  match c with
  | some c => rest.cons c
  | none => none

/-! ## Strings on one line -/

/-- What follows an opening double quote. -/
def basicBody : List Char → Quoted
  | '"' :: cs => some ([], cs)
  | '\\' :: 'u' :: a :: b :: c :: d :: cs =>
    (basicBody cs).consEscaped (charOfHex? [a, b, c, d])
  | '\\' :: 'U' :: a :: b :: c :: d :: e :: f :: g :: h :: cs =>
    (basicBody cs).consEscaped (charOfHex? [a, b, c, d, e, f, g, h])
  | '\\' :: c :: cs => (basicBody cs).consEscaped (escapedChar? c)
  | c :: cs => if isPlain c && c ≠ '\\' then (basicBody cs).cons c else none
  | [] => none

/-- What follows an opening single quote. -/
def literalBody : List Char → Quoted
  | '\'' :: cs => some ([], cs)
  | c :: cs => if isPlain c then (literalBody cs).cons c else none
  | [] => none

/-! ## Strings on several lines -/

/-- Whether a backslash before these characters joins lines. -/
def joinsLines (cs : List Char) : Bool :=
  (afterNewline? (cs.dropWhile isBlank)).isSome

/-- What a run of quotes at the start of a text, inside a string between three of them, means. -/
inductive Quotes where
  /-- The string ends, with some quotes before its end. -/
  | closing (extra : Nat) (rest : List Char)
  /-- The quotes are part of the string, which goes on. -/
  | content
deriving DecidableEq, Repr

/-- Three to five quotes end a string; the last three of them are its end. -/
def quotesOf (quote : Char) : List Char → Quotes
  | a :: b :: c :: d :: e :: cs =>
    if a ≠ quote || b ≠ quote || c ≠ quote then .content
    else if d ≠ quote then .closing 0 (d :: e :: cs)
    else if e ≠ quote then .closing 1 (e :: cs)
    else .closing 2 cs
  | [a, b, c, d] =>
    if a ≠ quote || b ≠ quote || c ≠ quote then .content
    else if d ≠ quote then .closing 0 [d]
    else .closing 1 []
  | [a, b, c] => if a ≠ quote || b ≠ quote || c ≠ quote then .content else .closing 0 []
  | _ => .content

/-- What follows three double quotes. While `joining` holds, blanks and line breaks are passed
    over. -/
def multilineBasicBody (joining : Bool) : List Char → Quoted
  | [] => none
  | '"' :: cs =>
    match quotesOf '"' ('"' :: cs) with
    | .closing extra rest => some (List.replicate extra '"', rest)
    | .content => (multilineBasicBody false cs).cons '"'
  | '\n' :: cs =>
    if joining then multilineBasicBody true cs else (multilineBasicBody false cs).cons '\n'
  | '\r' :: '\n' :: cs =>
    if joining then multilineBasicBody true cs else (multilineBasicBody false cs).cons '\n'
  | '\\' :: 'u' :: a :: b :: c :: d :: cs =>
    (multilineBasicBody false cs).consEscaped (charOfHex? [a, b, c, d])
  | '\\' :: 'U' :: a :: b :: c :: d :: e :: f :: g :: h :: cs =>
    (multilineBasicBody false cs).consEscaped (charOfHex? [a, b, c, d, e, f, g, h])
  | '\\' :: c :: cs =>
    if joinsLines (c :: cs) then multilineBasicBody true (c :: cs)
    else (multilineBasicBody false cs).consEscaped (escapedChar? c)
  | c :: cs =>
    if joining && isBlank c then multilineBasicBody true cs
    else if isPlain c && c ≠ '\\' then (multilineBasicBody false cs).cons c
    else none

/-- What follows three single quotes. -/
def multilineLiteralBody : List Char → Quoted
  | [] => none
  | '\'' :: cs =>
    match quotesOf '\'' ('\'' :: cs) with
    | .closing extra rest => some (List.replicate extra '\'', rest)
    | .content => (multilineLiteralBody cs).cons '\''
  | '\n' :: cs => (multilineLiteralBody cs).cons '\n'
  | '\r' :: '\n' :: cs => (multilineLiteralBody cs).cons '\n'
  | c :: cs => if isPlain c then (multilineLiteralBody cs).cons c else none

/-! ## Scanners -/

/-- The text without a line break at its start. -/
def dropNewline (cs : List Char) : List Char :=
  (afterNewline? cs).getD cs

/-- A string on one line. -/
def lineString : Scanner String := fun
  | '"' :: cs => (basicBody cs).map fun (text, rest) => (String.ofList text, rest)
  | '\'' :: cs => (literalBody cs).map fun (text, rest) => (String.ofList text, rest)
  | _ => none

/-- A string of any kind. -/
def string : Scanner String := fun
  | '"' :: '"' :: '"' :: cs =>
    (multilineBasicBody false (dropNewline cs)).map fun (text, rest) => (String.ofList text, rest)
  | '\'' :: '\'' :: '\'' :: cs =>
    (multilineLiteralBody (dropNewline cs)).map fun (text, rest) => (String.ofList text, rest)
  | cs => lineString cs

end JobRoster.Toml
