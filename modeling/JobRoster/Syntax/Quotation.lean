import JobRoster.Syntax.Token
import JobRoster.Text.Identifier

/-!
# Quoted literals

Strings and characters of source, with or without escapes. A string is scanned and decoded in one
pass; `scanCooked` on a text that a literal starts gives the value and what follows.
-/

namespace JobRoster.Syntax

open JobRoster.Text

/-- The three kinds of string, which differ in the escapes and characters they admit. -/
inductive StringKind where
  | text
  | bytes
  | cText
deriving DecidableEq, Repr

namespace StringKind

/-- Whether a character may stand for itself between the quotes. -/
def allows (kind : StringKind) (c : Char) : Bool :=
  match kind with
  | text => true
  | bytes => c.toNat < 0x80
  | cText => c ≠ '\x00'

/-- Whether two hexadecimal digits may be escaped. -/
def allowsCode (kind : StringKind) (code : Nat) : Bool :=
  match kind with
  | text => code < 0x80
  | bytes => true
  | cText => code ≠ 0

/-- Whether a code point may be escaped. -/
def allowsCodePoint (kind : StringKind) (code : Nat) : Bool :=
  match kind with
  | text => true
  | bytes => false
  | cText => code ≠ 0

end StringKind

def hexDigit? (c : Char) : Option Nat :=
  if '0' ≤ c && c ≤ '9' then some (c.toNat - '0'.toNat)
  else if 'a' ≤ c && c ≤ 'f' then some (c.toNat - 'a'.toNat + 10)
  else if 'A' ≤ c && c ≤ 'F' then some (c.toNat - 'A'.toNat + 10)
  else none

/-- The character of a code point, unless it is out of range or half of a surrogate pair. -/
def scalar? (code : Nat) : Option Char :=
  if code.isValidChar then some (Char.ofNat code) else none

/-- The character that an escape of one letter stands for. -/
def simpleEscape? (kind : StringKind) (c : Char) : Option Char :=
  match c with
  | 'n' => some '\n'
  | 'r' => some '\r'
  | 't' => some '\t'
  | '\\' => some '\\'
  | '\'' => some '\''
  | '"' => some '"'
  | '0' => if kind = .cText then none else some '\x00'
  | _ => none

/-! ## Strings with escapes -/

/-- Where a scan of a string stands. -/
inductive ScanMode where
  /-- Between characters. After a line that ends in a backslash, blanks are skipped. -/
  | plain (skipping : Bool)
  /-- Inside the braces of a code point escape, after some digits. -/
  | codePoint (value digits : Nat)

/-- The value of a string with escapes, and what follows its closing quote. -/
def scanCooked (kind : StringKind) : ScanMode → List Char → Option (List Char × List Char)
  | .codePoint value digits, c :: cs =>
    match hexDigit? c with
    | some d =>
      if digits < 6 then scanCooked kind (.codePoint (value * 16 + d) (digits + 1)) cs else none
    | none =>
      if digits = 0 then none
      else if c = '_' then scanCooked kind (.codePoint value digits) cs
      else if c = '\x7d' then
        match scalar? value with
        | some decoded =>
          if kind.allowsCodePoint value then
            (scanCooked kind (.plain false) cs).map fun (text, rest) => (decoded :: text, rest)
          else none
        | none => none
      else none
  | .plain _, '"' :: cs => some ([], cs)
  | .plain skipping, '\r' :: '\n' :: cs =>
    if skipping then scanCooked kind (.plain true) cs
    else (scanCooked kind (.plain false) cs).map fun (text, rest) => ('\n' :: text, rest)
  | .plain _, '\r' :: _ => none
  | .plain _, '\\' :: '\n' :: cs => scanCooked kind (.plain true) cs
  | .plain _, '\\' :: '\r' :: '\n' :: cs => scanCooked kind (.plain true) cs
  | .plain _, '\\' :: 'u' :: '\x7b' :: cs =>
    if kind = .bytes then none else scanCooked kind (.codePoint 0 0) cs
  | .plain _, '\\' :: 'x' :: high :: low :: cs =>
    match hexDigit? high, hexDigit? low with
    | some high, some low =>
      let code := high * 16 + low
      if kind.allowsCode code then
        (scanCooked kind (.plain false) cs).map fun (text, rest) => (Char.ofNat code :: text, rest)
      else none
    | _, _ => none
  | .plain _, '\\' :: c :: cs =>
    match simpleEscape? kind c with
    | some decoded =>
      (scanCooked kind (.plain false) cs).map fun (text, rest) => (decoded :: text, rest)
    | none => none
  | .plain skipping, c :: cs =>
    if skipping && (c = ' ' || c = '\t' || c = '\n') then scanCooked kind (.plain true) cs
    else if kind.allows c && c ≠ '\\' then
      (scanCooked kind (.plain false) cs).map fun (text, rest) => (c :: text, rest)
    else none
  | _, [] => none

/-! ## Raw strings -/

/-- What follows `count` number signs. -/
def dropPounds? : (count : Nat) → List Char → Option (List Char)
  | 0, cs => some cs
  | count + 1, '#' :: cs => dropPounds? count cs
  | _ + 1, _ => none

/-- The value of a raw string that closes with a quote and `pounds` number signs, and what follows.
    A carriage return must end its line. -/
def scanRaw (kind : StringKind) (pounds : Nat) : List Char → Option (List Char × List Char)
  | [] => none
  | '\r' :: '\n' :: cs =>
    (scanRaw kind pounds cs).map fun (text, rest) => ('\r' :: '\n' :: text, rest)
  | '\r' :: _ => none
  | c :: cs =>
    let continued :=
      if kind.allows c then (scanRaw kind pounds cs).map fun (text, rest) => (c :: text, rest)
      else none
    if c = '"' then
      match dropPounds? pounds cs with
      | some rest => some ([], rest)
      | none => continued
    else continued

/-- A raw string from after its first letter: number signs, at most 255, and the quote. -/
def rawString? (kind : StringKind) (cs : List Char) : Option (List Char × List Char) :=
  let pounds := (cs.takeWhile (· = '#')).length
  match cs.dropWhile (· = '#') with
  | '"' :: rest => if pounds ≤ 255 then scanRaw kind pounds rest else none
  | _ => none

/-! ## Characters -/

/-- A code point from after its opening brace. -/
def codePoint? : (value digits : Nat) → List Char → Option (Char × List Char)
  | _, _, [] => none
  | value, digits, c :: cs =>
    match hexDigit? c with
    | some d => if digits < 6 then codePoint? (value * 16 + d) (digits + 1) cs else none
    | none =>
      if digits = 0 then none
      else if c = '_' then codePoint? value digits cs
      else if c = '\x7d' then (scalar? value).map (·, cs)
      else none

/-- A character literal from after its opening quote, and what follows its closing quote. -/
def charBody? (cs : List Char) : Option (Char × List Char) :=
  let read : Option (Char × List Char) :=
    match cs with
    | '\\' :: 'x' :: high :: low :: rest =>
      match hexDigit? high, hexDigit? low with
      | some high, some low =>
        let code := high * 16 + low
        if code < 0x80 then some (Char.ofNat code, rest) else none
      | _, _ => none
    | '\\' :: 'u' :: '\x7b' :: rest => codePoint? 0 0 rest
    | '\\' :: c :: rest => (simpleEscape? .text c).map (·, rest)
    | '\\' :: [] => none
    | c :: rest => some (c, rest)
    | [] => none
  match read with
  | some (c, '\'' :: rest) => some (c, rest)
  | _ => none

/-- What follows a byte literal, from after its opening quote. -/
def byteBody? (cs : List Char) : Option (List Char) :=
  let read : Option (List Char) :=
    match cs with
    | '\\' :: 'x' :: high :: low :: rest =>
      if (hexDigit? high).isSome && (hexDigit? low).isSome then some rest else none
    | '\\' :: c :: rest => (simpleEscape? .bytes c).map fun _ => rest
    | '\\' :: [] => none
    | c :: rest => if StringKind.bytes.allows c then some rest else none
    | [] => none
  match read with
  | some ('\'' :: rest) => some rest
  | _ => none

/-! ## All of them -/

/-- The quoted literal at the start of a text, and what follows it and its suffix. -/
def quoted? (cs : List Char) : Option (Literal × List Char) :=
  let text (read : Option (List Char × List Char)) :=
    read.map fun (value, rest) => (Literal.str (String.ofList value), skipIdent rest)
  let valueless (literal : Literal) (read : Option (List Char × List Char)) :=
    read.map fun (_, rest) => (literal, skipIdent rest)
  match cs with
  | '"' :: rest => text (scanCooked .text (.plain false) rest)
  | 'r' :: rest => text (rawString? .text rest)
  | 'b' :: '"' :: rest => valueless .byteString (scanCooked .bytes (.plain false) rest)
  | 'b' :: 'r' :: rest => valueless .byteString (rawString? .bytes rest)
  | 'b' :: '\'' :: rest => (byteBody? rest).map fun rest => (.byteChar, skipIdent rest)
  | 'c' :: '"' :: rest => valueless .cString (scanCooked .cText (.plain false) rest)
  | 'c' :: 'r' :: rest => valueless .cString (rawString? .cText rest)
  | '\'' :: rest => (charBody? rest).map fun (value, rest) => (.char value, skipIdent rest)
  | _ => none

end JobRoster.Syntax
