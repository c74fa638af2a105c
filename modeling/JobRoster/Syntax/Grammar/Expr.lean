import JobRoster.Syntax.Grammar.Pattern
import JobRoster.Syntax.Numeral

/-!
# Rules for expressions

An expression is an operand with what trails it, then binary operators by precedence. Where a block
follows the expression, as after `if`, a struct literal must be in brackets: `allowStruct` tells.
-/

namespace JobRoster.Syntax

open Syntax.Parser

/-! ## Operators -/

/-- The binary operators, each before those that are a start of it. -/
def binaryOperators : List (String × Precedence) :=
  [("+=", .assign), ("-=", .assign), ("*=", .assign), ("/=", .assign), ("%=", .assign),
    ("^=", .assign), ("&=", .assign), ("|=", .assign), ("<<=", .assign), (">>=", .assign),
    ("&&", .and), ("||", .or), ("<<", .shift), (">>", .shift), ("==", .compare), ("<=", .compare),
    ("!=", .compare), (">=", .compare), ("+", .sum), ("-", .sum), ("*", .product), ("/", .product),
    ("%", .product), ("^", .bitXor), ("&", .bitAnd), ("|", .bitOr), ("<", .compare),
    (">", .compare)]

/-- The binary operator that comes next. -/
def binaryOperator? (tokens : List Token) : Option (String × Precedence) :=
  binaryOperators.find? fun (spelling, _) => Ahead.punct spelling tokens

/-- Whether an equals sign comes next that assigns. -/
def startsAssign (tokens : List Token) : Bool :=
  Ahead.punct "=" tokens && !Ahead.punct "=>" tokens

/-- How tightly the operator that comes next binds. -/
def nextPrecedence (tokens : List Token) : Precedence :=
  match binaryOperator? tokens with
  | some (_, precedence) => precedence
  | none =>
    if startsAssign tokens then .assign
    else if Ahead.punct ".." tokens then .range
    else if Ahead.word "as" tokens then .cast
    else .jump

namespace Expr

/-- The operand at the right of an operator, with the tighter operators after it. -/
def parseRight (g : Grammar) (allowStruct : Bool) (precedence : Precedence) : Parser Expr := do
  let first ← g (.unary allowStruct)
  let step (right : Expr) : Parser (Expr ⊕ Expr) := do
    let tokens ← look
    let next := nextPrecedence tokens
    if next.rank > precedence.rank || next = precedence && precedence = .assign then
      let right ← g (.operators right allowStruct next)
      if (← look).length = tokens.length then return .inr right else return .inl right
    else return .inr right
  loop step first

/-- Whether a range may be open at its upper end before these tokens. -/
def endsRange (allowStruct : Bool) (tokens : List Token) : Bool :=
  tokens.isEmpty || Ahead.punct "," tokens || Ahead.punct ";" tokens ||
    Ahead.punct "." tokens && !Ahead.punct ".." tokens || Ahead.punct "?" tokens ||
    Ahead.punct "=>" tokens || !allowStruct && Ahead.group .brace tokens ||
    Ahead.punct "=" tokens || Ahead.punct "+" tokens || Ahead.punct "/" tokens ||
    Ahead.punct "%" tokens || Ahead.punct "^" tokens || Ahead.punct ">" tokens ||
    Ahead.punct "<=" tokens || Ahead.punct "!=" tokens || Ahead.punct "-=" tokens ||
    Ahead.punct "*=" tokens || Ahead.punct "&=" tokens || Ahead.punct "|=" tokens ||
    Ahead.punct "<<=" tokens || Ahead.word "as" tokens

/-- The dots of a range and its upper end. Three dots are no range here. -/
def parseRangeAfter (g : Grammar) (allowStruct : Bool) : Parser Expr := do
  let closed ← punct? "..="
  unless closed do
    if Ahead.punct "..." (← look) then
      fail "expected `..`"
    punct ".."
  if !closed && endsRange allowStruct (← look) then return .range none
  return .range (some (← parseRight g allowStruct .range))

/-- A cast binds more loosely than what could trail it, so nothing may. -/
def checkAfterCast : Parser Unit := do
  let tokens ← look
  if Ahead.punct "." tokens && !Ahead.punct ".." tokens || Ahead.punct "?" tokens ||
      Ahead.group .bracket tokens || Ahead.group .paren tokens then
    fail "casts cannot be followed by what trails an operand"

/-- The operators after `left` that bind at least as tightly as given. A range is no operand, and
    comparisons do not chain. -/
def parseOperators (g : Grammar) (left : Expr) (allowStruct : Bool) (atLeast : Precedence) :
    Parser Expr := do
  let admits (precedence : Precedence) : Bool := atLeast.rank ≤ precedence.rank
  let step (left : Expr) : Parser (Expr ⊕ Expr) := do
    if left.isRange then return .inr left
    let tokens ← look
    match binaryOperator? tokens with
    | some (spelling, precedence) =>
      unless admits precedence do return .inr left
      match precedence, left with
      | .compare, .binary .compare _ _ => fail "comparison operators cannot be chained"
      | _, _ =>
        punct spelling
        return .inl (.binary precedence left (← parseRight g allowStruct precedence))
    | none =>
      if admits .assign && startsAssign tokens then
        punct "="
        return .inl (.assign left (← parseRight g allowStruct .assign))
      else if admits .range && Ahead.punct ".." tokens then
        return .inl (← parseRangeAfter g allowStruct)
      else if admits .cast && Ahead.word "as" tokens then
        word "as"
        let type ← g (.type false)
        checkAfterCast
        return .inl (.other type.endsInBrace)
      else return .inr left
  loop step left

/-- Whether an expression may start here. -/
def starts (tokens : List Token) : Bool :=
  Ahead.identOrWord tokens && !Ahead.word "as" tokens || Ahead.group .paren tokens ||
    Ahead.group .bracket tokens || Ahead.group .brace tokens || Ahead.literal tokens ||
    Ahead.punct "!" tokens && !Ahead.punct "!=" tokens ||
    Ahead.punct "-" tokens && !Ahead.punct "-=" tokens && !Ahead.punct "->" tokens ||
    Ahead.punct "*" tokens && !Ahead.punct "*=" tokens ||
    Ahead.punct "|" tokens && !Ahead.punct "|=" tokens ||
    Ahead.punct "&" tokens && !Ahead.punct "&=" tokens || Ahead.punct ".." tokens ||
    Ahead.punct "<" tokens && !Ahead.punct "<=" tokens && !Ahead.punct "<<=" tokens ||
    Ahead.punct "::" tokens || Ahead.lifetime tokens || Ahead.punct "#" tokens

/-! ## Control flow -/

/-- One condition and block after another, each but the first after `else`. -/
def parseIf (g : Grammar) : Parser Expr := do
  let step (_ : Unit) : Parser (Unit ⊕ Unit) := do
    word "if"
    let _ ← g (.expr false)
    let _ ← parseBlock g
    unless ← word? "else" do return .inr ()
    let tokens ← look
    if Ahead.word "if" tokens then return .inl ()
    if Ahead.group .brace tokens then
      let _ ← parseBlock g
      return .inr ()
    fail "expected `if` or a block"
  loop step ()
  return .control

def parseLabel? : Parser Bool := do
  if ← takeLifetime? then
    punct ":"
    return true
  return false

def parseWhile (g : Grammar) : Parser Expr := do
  word "while"
  let _ ← g (.expr false)
  let _ ← parseBody g
  return .control

def parseFor (g : Grammar) : Parser Expr := do
  word "for"
  let _ ← Pattern.parseAlternatives g
  word "in"
  let _ ← g (.expr false)
  let _ ← parseBody g
  return .control

def parseLoop (g : Grammar) : Parser Expr := do
  word "loop"
  let _ ← parseBody g
  return .control

def parseBraces (g : Grammar) : Parser Expr := do
  let _ ← parseBody g
  return .block

/-- A word and a block with inner attributes. -/
def parseWordBody (g : Grammar) (spelling : String) : Parser Expr := do
  word spelling
  let _ ← parseBody g
  return .control

def parseTry (g : Grammar) : Parser Expr := do
  word "try"
  let _ ← parseBlock g
  return .control

/-- A loop or a block behind a label. -/
def parseLabeled (g : Grammar) : Parser Expr := do
  let _ ← parseLabel?
  let tokens ← look
  if Ahead.word "while" tokens then parseWhile g
  else if Ahead.word "for" tokens then parseFor g
  else if Ahead.word "loop" tokens then parseLoop g
  else if Ahead.group .brace tokens then parseBraces g
  else fail "expected loop or block expression"

/-! ## Operands -/

/-- A field of a struct literal: a value after a colon, or the name alone. -/
def parseFieldValue (g : Grammar) : Parser Unit := do
  let _ ← Attribute.parseOuter g
  let named ← parseMember
  if !named || Ahead.punct ":" (← look) then
    punct ":"
    let _ ← g (.expr true)

/-- The fields of a struct literal, and what the remaining ones are taken from. -/
def parseStructFields (g : Grammar) : Parser Unit := do
  let step (_ : Unit) : Parser (Unit ⊕ Unit) := do
    if ← isEnd then return .inr ()
    if ← punct? ".." then
      unless ← isEnd do
        let _ ← g (.expr true)
      return .inr ()
    parseFieldValue g
    if ← isEnd then return .inr ()
    punct ","
    return .inl ()
  loop step ()

/-- An operand that starts with a path: a macro call, a struct literal, or the path. -/
def parseNamed (g : Grammar) (allowStruct : Bool) : Parser Expr := do
  let (qualified, p) ← Path.parseQualified g true
  let tokens ← look
  if !qualified && Ahead.punct "!" tokens && !Ahead.punct "!=" tokens && p.isPlain then
    punct "!"
    return .macroCall (← parseMacroBody p)
  if allowStruct && Ahead.group .brace tokens then
    inGroup .brace (parseStructFields g)
    return .other true
  return .path qualified p

/-- What parentheses hold: an expression, or a tuple of them. -/
def parseParen (g : Grammar) : Parser Expr :=
  inGroup .paren do
    if ← isEnd then return .other false
    let first ← g (.expr true)
    if ← isEnd then return .parenthesized first
    punct ","
    let _ ← commaList (g (.expr true))
    return .other false

/-- What brackets hold: elements, or one element and how often it is repeated. -/
def parseArray (g : Grammar) : Parser Expr :=
  inGroup .bracket do
    if ← isEnd then return .other false
    let _ ← g (.expr true)
    if ← punct? "," then
      let _ ← commaList (g (.expr true))
    else if ← punct? ";" then
      let _ ← g (.expr true)
    else
      unless ← isEnd do fail "expected `,` or `;`"
    return .other false

def parseClosureArgument (g : Grammar) : Parser Unit := do
  let _ ← Attribute.parseOuter g
  let _ ← g .pattern
  if ← punct? ":" then
    let _ ← g (.type true)

/-- A closure. With a result type its body is a block. -/
def parseClosure (g : Grammar) (allowStruct : Bool) : Parser Expr := do
  let _ ← Bound.parseBinder? g
  let _ ← word? "const"
  let _ ← word? "static"
  let _ ← word? "async"
  let _ ← word? "move"
  punct "|"
  separatedUntil (Ahead.punct "|") "," (parseClosureArgument g)
  punct "|"
  if ← punct? "->" then
    let _ ← g (.type true)
    let _ ← parseBlock g
    return .leading .block
  return .leading (← g (.expr allowStruct))

/-- An operand after a word that leaves: nothing may follow it. -/
def parseJump (g : Grammar) (spelling : String) : Parser Expr := do
  word spelling
  if starts (← look) then return .leading (← g (.expr true)) else return .other false

/-- A break, perhaps out of a label and with a value. A label before a loop is not the label of the
    break, and such a loop must be in parentheses. -/
def parseBreak (g : Grammar) (allowStruct : Bool) : Parser Expr := do
  word "break"
  let line ← here
  let tokens ← look
  if Ahead.lifetime tokens && Ahead.punct ":" (Ahead.skip tokens) then
    let _ ← g (.expr true)
    failAt line "parentheses required"
  let _ ← takeLifetime?
  let tokens ← look
  if starts tokens && (allowStruct || !Ahead.group .brace tokens) then
    return .leading (← g (.expr true))
  return .other false

def parseLet (g : Grammar) (allowStruct : Bool) : Parser Expr := do
  word "let"
  let _ ← Pattern.parseAlternatives g
  punct "="
  let first ← g (.unary allowStruct)
  return .leading (← g (.operators first allowStruct .compare))

/-- One arm of a match. A comma must follow unless the arm is a block or comes last. -/
def parseArm (g : Grammar) : Parser Unit := do
  let _ ← Attribute.parseOuter g
  let _ ← Pattern.parseAlternatives g
  if ← word? "if" then
    let _ ← g (.expr true)
  punct "=>"
  let e ← g .early
  if !e.isBlockLike && !(← isEnd) then punct ","
  else
    let _ ← punct? ","

def parseMatch (g : Grammar) : Parser Expr := do
  word "match"
  let _ ← g (.expr false)
  inGroup .brace do
    let _ ← Attribute.parseInner g
    let _ ← untilEnd (parseArm g)
  return .control

def parseAsync (g : Grammar) : Parser Expr := do
  word "async"
  let _ ← word? "move"
  let _ ← parseBlock g
  return .other true

/-- An expression that only the compiler understands. -/
def parseBuiltin : Parser Expr := do
  word "builtin"
  punct "#"
  let _ ← takeIdent
  inGroup .paren do
    continueAt []
  return .other false

/-- Whether a closure starts here. -/
def startsClosure (tokens : List Token) : Bool :=
  let second := Ahead.skip tokens
  Ahead.punct "|" tokens || Ahead.word "move" tokens ||
    Ahead.word "for" tokens && startsGenerics second ||
    Ahead.word "const" tokens && !Ahead.group .brace second || Ahead.word "static" tokens ||
    Ahead.word "async" tokens && (Ahead.punct "|" second || Ahead.word "move" second)

/-- Whether an operand that starts with a path starts here. -/
def startsNamed (tokens : List Token) : Bool :=
  let second := Ahead.skip tokens
  Ty.startsPath tokens || Ahead.punct "::" tokens || Ahead.punct "<" tokens ||
    Ahead.word "try" tokens && (Ahead.punct "!" second || Ahead.punct "::" second)

/-- An operand, without what trails it. -/
def parseAtom (g : Grammar) (allowStruct : Bool) : Parser Expr := do
  let tokens ← look
  let second := Ahead.skip tokens
  if Ahead.literal tokens then return .literal (← takeLiteral)
  else if Ahead.word "async" tokens &&
      (Ahead.group .brace second ||
        Ahead.word "move" second && Ahead.group .brace (Ahead.skip second)) then
    parseAsync g
  else if Ahead.word "try" tokens && Ahead.group .brace second then parseTry g
  else if startsClosure tokens then parseClosure g allowStruct
  else if Ahead.word "builtin" tokens && Ahead.punct "#" second then parseBuiltin
  else if startsNamed tokens then parseNamed g allowStruct
  else if Ahead.group .paren tokens then parseParen g
  else if Ahead.word "break" tokens then parseBreak g allowStruct
  else if ← word? "continue" then
    let _ ← takeLifetime?
    return .other false
  else if Ahead.word "return" tokens then parseJump g "return"
  else if ← word? "become" then
    let _ ← g (.expr true)
    return .other false
  else if Ahead.group .bracket tokens then parseArray g
  else if Ahead.word "let" tokens then parseLet g allowStruct
  else if Ahead.word "if" tokens then parseIf g
  else if Ahead.word "while" tokens then parseWhile g
  else if Ahead.word "for" tokens then parseFor g
  else if Ahead.word "loop" tokens then parseLoop g
  else if Ahead.word "match" tokens then parseMatch g
  else if Ahead.word "yield" tokens then parseJump g "yield"
  else if Ahead.word "unsafe" tokens then parseWordBody g "unsafe"
  else if Ahead.word "const" tokens then parseWordBody g "const"
  else if Ahead.group .brace tokens then parseBraces g
  else if Ahead.punct ".." tokens then parseRangeAfter g allowStruct
  else if ← word? "_" then return .other false
  else if Ahead.lifetime tokens then parseLabeled g
  else fail "expected an expression"

/-! ## What trails an operand -/

/-- The fields that a floating-point number names, as in `pair.0.1`, and whether a field after a
    point is still to come. -/
def parseFloatFields (spelling : String) (object : Expr) : Parser (Expr × Bool) := do
  let parts := spelling.toList.splitOn '.'
  let dangling := parts.getLast?.any List.isEmpty
  let parts := if dangling then parts.dropLast else parts
  let isIndex (part : List Char) : Bool :=
    match Literal.ofNumber part with
    | .int digits suffix => suffix = "" && digits.toNat?.any (· < Nat.pow 2 32)
    | _ => false
  unless parts.all fun part => !part.isEmpty && isIndex part do
    fail "expected unsuffixed integer"
  let tokens ← look
  continueAt (tokens.drop 1)
  return (parts.foldl (fun object _ => .field object) object, dangling)

/-- What follows a point: a field, a method call or a suspension. -/
def parseAfterPoint (g : Grammar) (object : Expr) : Parser Expr := do
  if ← word? "await" then return .other false
  let tokens ← look
  match tokens with
  | .ident method _ :: _ =>
    if Ahead.ident tokens then
      let _ ← takeIdent
      let turbofish := Ahead.punct "::" (← look)
      if turbofish then
        punct "::"
        parseAngled g
      if turbofish || Ahead.group .paren (← look) then
        return .methodCall object method (← inGroup .paren (commaList (g (.expr true))))
      return .field object
    else fail "expected identifier or integer"
  | _ =>
    let _ ← parseMember
    return .field object

/-- What trails an operand: arguments, fields, indices and question marks. Nothing but arguments
    and indices trails a range. -/
def parseTrailers (g : Grammar) (first : Expr) : Parser Expr := do
  let step (e : Expr) : Parser (Expr ⊕ Expr) := do
    let tokens ← look
    if Ahead.group .paren tokens then
      return .inl (.call e (← inGroup .paren (commaList (g (.expr true)))))
    else if Ahead.group .bracket tokens then
      return .inl (.index e (← inGroup .bracket (g (.expr true))))
    else if Ahead.punct "." tokens && !Ahead.punct ".." tokens && !e.isRange then
      punct "."
      match ← look with
      | .literal (.float _ _ spelling) _ :: _ =>
        let (e, more) ← parseFloatFields spelling e
        if more then return .inl (← parseAfterPoint g e) else return .inl e
      | _ => return .inl (← parseAfterPoint g e)
    else if Ahead.punct "?" tokens && !e.isRange then
      punct "?"
      return .inl (.other false)
    else return .inr e
  loop step first

/-- An expression without binary operators: prefixed operators, an operand, and what trails it. -/
def parseUnary (g : Grammar) (allowStruct : Bool) : Parser Expr := do
  let attributes ← Attribute.parseOuter g
  let tokens ← look
  if ← punct? "&" then
    let second ← look
    let raw := Ahead.word "raw" second &&
      Ahead.anyWord ["mut", "const"] (Ahead.skip second)
    if raw then
      word "raw"
      unless ← word? "mut" do word "const"
      return .leading (← g (.unary allowStruct))
    let _ ← word? "mut"
    return .reference (← g (.unary allowStruct))
  else if Ahead.punct "*" tokens || Ahead.punct "!" tokens || Ahead.punct "-" tokens then
    continueAt (tokens.drop 1)
    return .leading (← g (.unary allowStruct))
  else
    let line ← here
    let e ← parseTrailers g (← parseAtom g allowStruct)
    if e.isRange && !attributes.isEmpty then
      failAt line "attributes are not allowed on range expressions starting with `..`"
    return e

/-! ## Whole expressions -/

/-- An expression. -/
def parse (g : Grammar) (allowStruct : Bool) : Parser Expr := do
  parseOperators g (← parseUnary g allowStruct) allowStruct .jump

/-- The first part of an expression that is a statement or the body of a match arm. One that ends
    in a block ends there, unless a point or a question mark trails it. -/
def parseEarlyAtom (g : Grammar) : Parser Expr := do
  let tokens ← look
  let second := Ahead.skip tokens
  if Ahead.word "if" tokens then parseIf g
  else if Ahead.word "while" tokens then parseWhile g
  else if Ahead.word "for" tokens && !startsGenerics second then parseFor g
  else if Ahead.word "loop" tokens then parseLoop g
  else if Ahead.word "match" tokens then parseMatch g
  else if Ahead.word "try" tokens && Ahead.group .brace second then parseTry g
  else if Ahead.word "unsafe" tokens then parseWordBody g "unsafe"
  else if Ahead.word "const" tokens && Ahead.group .brace second then parseWordBody g "const"
  else if Ahead.group .brace tokens then parseBraces g
  else if Ahead.lifetime tokens then parseLabeled g
  else parseUnary g true

/-- An expression that ends as soon as it is a whole statement. -/
def parseEarly (g : Grammar) : Parser Expr := do
  let _ ← Attribute.parseOuter g
  let e ← parseEarlyAtom g
  let tokens ← look
  if !e.isBlockLike then g (.operators e true .jump)
  else if Ahead.punct "." tokens && !Ahead.punct ".." tokens || Ahead.punct "?" tokens then
    let e ← parseTrailers g e
    g (.operators e true .jump)
  else return e

end Expr

end JobRoster.Syntax
