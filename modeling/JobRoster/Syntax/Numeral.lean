import JobRoster.Syntax.Token
import JobRoster.Text.Identifier

/-!
# Numbers

A numeric literal is scanned first, as a floating-point number if it can be one and as an integer
otherwise, and its spelling is then read for digits and suffix. The scanner and the reader are not
the same grammar: `1e_` is scanned whole and read as the integer `1` with the suffix `e_`.
-/

namespace JobRoster.Syntax

open JobRoster.Text

namespace Numeral

/-- The value of a character as a digit of the given base, from 2 to 16. A letter counts only where
    the base has letters. -/
def digit? (base : Nat) (c : Char) : Option Nat :=
  if '0' ≤ c && c ≤ '9' then some (c.toNat - '0'.toNat)
  else if base > 10 && 'a' ≤ c && c ≤ 'f' then some (c.toNat - 'a'.toNat + 10)
  else if base > 10 && 'A' ≤ c && c ≤ 'F' then some (c.toNat - 'A'.toNat + 10)
  else none

/-- The base that a number announces, and the text after the announcement. -/
def base : List Char → Nat × List Char
  | '0' :: 'x' :: cs => (16, cs)
  | '0' :: 'o' :: cs => (8, cs)
  | '0' :: 'b' :: cs => (2, cs)
  | cs => (10, cs)

/-! ## Scanning -/

/-- Digits, underscores and at most one point. Gives whether a point was met, and the rest; nothing
    where the point belongs to a range or a member access. -/
def mantissa? : Bool → List Char → Option (Bool × List Char)
  | point, [] => some (point, [])
  | point, c :: cs =>
    if isAsciiDigit c || c = '_' then mantissa? point cs
    else if c = '.' && !point then
      if cs.head?.any fun next => next = '.' || isIdentStart next then none else mantissa? true cs
    else some (point, c :: cs)

/-- What follows an exponent, if it has a digit: an optional sign, then digits and underscores. -/
def exponent? : (signed valued : Bool) → List Char → Option (List Char)
  | _, valued, [] => if valued then some [] else none
  | signed, valued, c :: cs =>
    if isAsciiDigit c then exponent? signed true cs
    else if c = '_' then exponent? signed valued cs
    else if (c = '+' || c = '-') && !valued then
      if signed then none else exponent? true valued cs
    else if valued then some (c :: cs) else none

/-- What follows the digits of a floating-point number. A letter `e` without an exponent behind it
    is left over where a point came before, and else the number is no floating-point number. -/
def afterFloat? (cs : List Char) : Option (List Char) :=
  if cs.head?.any isAsciiDigit then
    match mantissa? false cs with
    | none => none
    | some (point, rest) =>
      match rest with
      | c :: more =>
        if c = 'e' || c = 'E' then
          match exponent? false false more with
          | some rest => some rest
          | none => if point then some (c :: more) else none
        else if point then some rest else none
      | [] => if point then some [] else none
  else none

/-- What follows the digits of an integer: those of its base and underscores. A decimal integer does
    not start with an underscore. -/
def afterDigits? (base : Nat) : (empty : Bool) → List Char → Option (List Char)
  | empty, [] => if empty then none else some []
  | empty, c :: cs =>
    match digit? 16 c with
    | some d =>
      if d < base then afterDigits? base false cs
      else if isAsciiDigit c then none
      else if empty then none else some (c :: cs)
    | none =>
      if c = '_' then if empty && base = 10 then none else afterDigits? base empty cs
      else if empty then none else some (c :: cs)

/-- What follows a number and its suffix; a number may not run on into an identifier. -/
def afterSuffix? (cs : List Char) : Option (List Char) :=
  let rest := skipIdent cs
  if rest.head?.any isIdentContinue then none else some rest

/-- What follows the number at the start of a text. -/
def after? (cs : List Char) : Option (List Char) :=
  match (afterFloat? cs).bind afterSuffix? with
  | some rest => some rest
  | none =>
    let (base, digits) := base cs
    (afterDigits? base true digits).bind afterSuffix?

/-! ## Reading -/

def isSuffix (cs : List Char) : Bool :=
  cs.isEmpty || isIdent cs

/-- Whether an exponent follows the letter `e`, so that the number is no integer. -/
def hasExponent : (valued : Bool) → List Char → Bool
  | valued, [] => valued
  | valued, c :: cs =>
    if c = '_' then hasExponent valued cs
    else if c = '-' || c = '+' then true
    else if isAsciiDigit c then hasExponent true cs
    else valued && isIdent (c :: cs)

/-- The value and the suffix of an integer. -/
def integer? (base value : Nat) : (empty : Bool) → List Char → Option (Nat × List Char)
  | empty, [] => if empty then none else some (value, [])
  | empty, c :: cs =>
    if c = '_' then integer? base value empty cs
    else
      match digit? base c with
      | some d => if d < base then integer? base (value * base + d) false cs else none
      | none =>
        if base = 10 && (c = '.' || (c = 'e' || c = 'E') && hasExponent false cs) then none
        else if !empty && isSuffix (c :: cs) then some (value, c :: cs)
        else none

/-- How far the digits of a floating-point number have been read. -/
structure FloatState where
  point : Bool
  exponent : Bool
  sign : Bool
  /-- Whether the exponent has a digit. -/
  valued : Bool

/-- The digits and the suffix of a floating-point number. Underscores and a plus sign are dropped,
    and the exponent is marked by a small letter. -/
def float? (state : FloatState) : List Char → Option (List Char × List Char)
  | [] => if state.exponent && !state.valued then none else some ([], [])
  | c :: cs =>
    let stop :=
      if state.exponent && !state.valued then none
      else if isSuffix (c :: cs) then some ([], c :: cs) else none
    let keep (written : List Char) (state : FloatState) :=
      (float? state cs).map fun (digits, suffix) => (written ++ digits, suffix)
    if c = '_' then keep [] state
    else if isAsciiDigit c then keep [c] { state with valued := state.valued || state.exponent }
    else if c = '.' then
      if state.exponent || state.point then none else keep [c] { state with point := true }
    else if c = 'e' || c = 'E' then
      if (cs.find? (· ≠ '_')).any fun next => next = '-' || next = '+' || isAsciiDigit next then
        if state.exponent then if state.valued then stop else none
        else keep ['e'] { state with exponent := true }
      else stop
    else if c = '-' || c = '+' then
      if state.sign || state.valued || !state.exponent then none
      else keep (if c = '-' then [c] else []) { state with sign := true }
    else stop

end Numeral

/-- The literal that a spelling of a number stands for. -/
def Literal.ofNumber (spelling : List Char) : Literal :=
  let (base, digits) := Numeral.base spelling
  match Numeral.integer? base 0 true digits with
  | some (value, suffix) => .int (toString value) (String.ofList suffix)
  | none =>
    match Numeral.float? ⟨false, false, false, false⟩ spelling with
    | some (digits, suffix) =>
      .float (String.ofList digits) (String.ofList suffix) (String.ofList spelling)
    | none => .unknown (String.ofList spelling)

end JobRoster.Syntax
