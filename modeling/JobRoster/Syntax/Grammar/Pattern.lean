import JobRoster.Syntax.Grammar.Ty

/-!
# Rules for patterns

A single pattern has no alternatives at its top; `parseAlternatives` reads them too.
-/

namespace JobRoster.Syntax

open Syntax.Parser

/-- Whether dots make a range that includes its upper end, from `..=` or the older `...`. -/
def parseDots : Parser Bool := do
  if ← punct? "..=" then return true
  if ← punct? "..." then return true
  punct ".."
  return false

/-- Whether a vertical bar comes next that separates alternatives. -/
def startsAlternative (tokens : List Token) : Bool :=
  Ahead.punct "|" tokens && !Ahead.punct "||" tokens && !Ahead.punct "|=" tokens

/-- The name of a field: an identifier, or the index of a tuple field. Tells whether it is named. -/
def parseMember : Parser Bool := do
  let tokens ← look
  if Ahead.ident tokens then
    let _ ← takeIdent
    return true
  match Ahead.literal? tokens with
  | some (.int digits suffix, rest) =>
    if suffix = "" && digits.toNat?.any (· < Nat.pow 2 32) then
      continueAt rest
      return false
    else fail "expected unsuffixed integer"
  | _ => fail "expected identifier or integer"

namespace Pattern

/-- Alternatives with bars between, and perhaps one before. -/
def parseAlternatives (g : Grammar) : Parser Pattern := do
  let leading ← punct? "|"
  let first ← g .pattern
  let more ← manyWhile startsAlternative do
    punct "|"
    g .pattern
  return if leading || !more.isEmpty then .other else first

/-- An end of a range: a literal, a path or a constant block; nothing where the range is open. -/
def parseRangeEnd? (g : Grammar) : Parser Bool := do
  let tokens ← look
  if tokens.isEmpty || Ahead.punct "|" tokens || Ahead.punct "=" tokens ||
      Ahead.punct ":" tokens && !Ahead.punct "::" tokens || Ahead.punct "," tokens ||
      Ahead.punct ";" tokens || Ahead.word "if" tokens then
    return false
  if Ahead.literal tokens then
    let _ ← takeLiteral
  else if Ty.startsPath tokens || Ahead.punct "::" tokens || Ahead.punct "<" tokens then
    let _ ← Path.parseQualified g true
  else if ← word? "const" then
    let _ ← parseBody g
  else fail "expected literal, path or `const`"
  return true

/-- The dots of a range and its upper end. An end that is included may not be missing. -/
def parseRangeAfter (g : Grammar) : Parser Pattern := do
  let line ← here
  let closed ← parseDots
  let bounded ← parseRangeEnd? g
  if closed && !bounded then
    fail "expected range upper bound"
  return if bounded then .other else .openRange line

/-- A literal or a range that starts with one. -/
def parseLiteral (g : Grammar) : Parser Pattern := do
  let _ ← parseRangeEnd? g
  if Ahead.punct ".." (← look) then parseRangeAfter g else return .other

def parseField (g : Grammar) : Parser Unit := do
  let boxed ← word? "box"
  let byRef ← word? "ref"
  let mutable ← word? "mut"
  if boxed || byRef || mutable then
    let _ ← takeIdent
  else
    let named ← parseMember
    if !named || Ahead.punct ":" (← look) then
      punct ":"
      let _ ← parseAlternatives g

/-- The fields of a struct pattern, and two dots for the remaining ones. -/
def parseFields (g : Grammar) : Parser Unit := do
  let step (_ : Unit) : Parser (Unit ⊕ Unit) := do
    if ← isEnd then return .inr ()
    let _ ← Attribute.parseOuter g
    if ← punct? ".." then return .inr ()
    parseField g
    if ← isEnd then return .inr ()
    punct ","
    return .inl ()
  loop step ()

/-- A pattern that starts with a path. -/
def parseNamed (g : Grammar) : Parser Pattern := do
  let (qualified, path) ← Path.parseQualified g true
  let tokens ← look
  if !qualified && Ahead.punct "!" tokens && !Ahead.punct "!=" tokens && path.isPlain then
    punct "!"
    let _ ← parseMacroBody path
    return .other
  if Ahead.group .brace tokens then
    inGroup .brace (parseFields g)
    return .other
  if Ahead.group .paren tokens then
    let _ ← inGroup .paren (commaList (parseAlternatives g))
    return .other
  if Ahead.punct ".." tokens then parseRangeAfter g else return .other

/-- A name, perhaps with a pattern for what it stands for. -/
def parseBinding (g : Grammar) : Parser Pattern := do
  let _ ← word? "ref"
  let _ ← word? "mut"
  if Ahead.word "self" (← look) then
    let _ ← takeAnyIdent
  else
    let _ ← takeIdent
  if ← punct? "@" then
    let _ ← g .pattern
  return .other

/-- An element of a slice pattern. A range that is open at one end must be in parentheses there. -/
def parseElement (g : Grammar) : Parser Unit := do
  match ← parseAlternatives g with
  | .openRange line =>
    failAt line "range pattern is not allowed unparenthesized inside slice pattern"
  | _ => return

/-- Two dots at the start: the rest of a sequence, or a range without a lower end. -/
def parseLeadingDots (g : Grammar) : Parser Pattern := do
  let line ← here
  let closed ← punct? "..="
  unless closed do punct ".."
  if ← parseRangeEnd? g then return .openRange line
  if closed then
    fail "expected range upper bound"
  return .other

/-- Whether a path that is more than a name starts here, or something that only a path may start
    with. -/
def startsNamed (tokens : List Token) : Bool :=
  let second := Ahead.skip tokens
  Ahead.ident tokens &&
      (Ahead.punct "::" second || Ahead.punct "!" second || Ahead.group .brace second ||
        Ahead.group .paren second || Ahead.punct ".." second) ||
    Ahead.word "self" tokens && Ahead.punct "::" second ||
    Ahead.punct "::" tokens || Ahead.punct "<" tokens ||
    Ahead.anyWord ["Self", "super", "crate"] tokens

/-- A single pattern. -/
def parse (g : Grammar) : Parser Pattern := do
  let tokens ← look
  if startsNamed tokens then parseNamed g
  else if ← word? "_" then return .other
  else if ← word? "box" then
    let _ ← g .pattern
    return .other
  else if Ahead.punct "-" tokens || Ahead.literal tokens || Ahead.word "const" tokens then
    parseLiteral g
  else if Ahead.anyWord ["ref", "mut", "self"] tokens || Ahead.ident tokens then parseBinding g
  else if ← punct? "&" then
    let _ ← word? "mut"
    let _ ← g .pattern
    return .other
  else if Ahead.group .paren tokens then
    let _ ← inGroup .paren (commaList (parseAlternatives g))
    return .other
  else if Ahead.group .bracket tokens then
    let _ ← inGroup .bracket (commaList (parseElement g))
    return .other
  else if Ahead.punct ".." tokens && !Ahead.punct "..." tokens then parseLeadingDots g
  else fail "expected pattern"

end Pattern

end JobRoster.Syntax
