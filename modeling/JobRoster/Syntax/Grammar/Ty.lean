import JobRoster.Syntax.Grammar.Attribute

/-!
# Rules for paths, bounds and types

Paths in types and in expressions differ in one thing: in an expression, arguments in angle
brackets must be introduced by `::`.
-/

namespace JobRoster.Syntax

open Syntax.Parser

/-! ## Paths -/

/-- Generic arguments in angle brackets. -/
def parseAngled (g : Grammar) : Parser Unit := do
  punct "<"
  separatedUntil (Ahead.punct ">") "," (g .genericArgument)
  punct ">"

/-- One segment of a path, with its arguments in angle brackets. -/
def PathSegment.parse (g : Grammar) (inExpr : Bool) : Parser PathSegment := do
  let tokens ← look
  if Ahead.anyWord ["super", "self", "crate", "try"] tokens then return ⟨← takeAnyIdent, .none⟩
  let ident ← if Ahead.word "Self" tokens then takeAnyIdent else takeIdent
  let tokens ← look
  let bare := !inExpr && Ahead.punct "<" tokens && !Ahead.punct "<=" tokens &&
    !Ahead.punct "<<=" tokens
  let introduced := Ahead.punct "::" tokens && Ahead.punct "<" (tokens.drop 2)
  if bare || introduced then
    let _ ← punct? "::"
    parseAngled g
    return ⟨ident, .angled⟩
  return ⟨ident, .none⟩

/-- More segments, each after `::`. Parentheses after `::` are arguments and end the path. -/
def Path.parseMore (g : Grammar) (inExpr : Bool) (path : Path) : Parser Path := do
  let more ← manyWhile
    (fun tokens => Ahead.punct "::" tokens && !Ahead.group .paren (tokens.drop 2)) do
      punct "::"
      PathSegment.parse g inExpr
  return { path with segments := path.segments ++ more }

def Path.parse (g : Grammar) (inExpr : Bool) : Parser Path := do
  let leadingColon ← punct? "::"
  let first ← PathSegment.parse g inExpr
  Path.parseMore g inExpr ⟨leadingColon, [first]⟩

/-- A path that may start from a type in angle brackets, as in `<T as Trait>::Item`. Tells whether
    it does. -/
def Path.parseQualified (g : Grammar) (inExpr : Bool) : Parser (Bool × Path) := do
  if ← punct? "<" then
    let _ ← g (.type true)
    if ← word? "as" then
      let _ ← Path.parse g false
    punct ">"
    punct "::"
    let step (done : List PathSegment) : Parser (List PathSegment ⊕ List PathSegment) := do
      let done := (← PathSegment.parse g inExpr) :: done
      if ← punct? "::" then return .inl done else return .inr done.reverse
    return (true, ⟨false, ← loop step []⟩)
  return (false, ← Path.parse g inExpr)

/-- The result type after an arrow, if there is one. -/
def parseResult? (g : Grammar) (allowPlus : Bool) : Parser (Option Ty) := do
  if ← punct? "->" then return some (← g (.type allowPlus)) else return none

/-- Arguments in parentheses and a result type, as `Fn` takes, behind the last segment of a path if
    they come next. Gives the result type, and nothing without arguments. -/
def Path.parseCallArguments (g : Grammar) (path : Path) : Parser (Path × Option (Option Ty)) := do
  let tokens ← look
  let follow := Ahead.group .paren tokens ||
    Ahead.punct "::" tokens && Ahead.group .paren (tokens.drop 2)
  match path.segments.reverse with
  | ⟨ident, .none⟩ :: before =>
    if follow then
      let _ ← punct? "::"
      let _ ← inGroup .paren (commaList (g (.type true)))
      let result ← parseResult? g false
      let last : PathSegment := ⟨ident, .parenthesized (result.any Ty.endsInBrace)⟩
      return ({ path with segments := (last :: before).reverse }, some result)
    return (path, none)
  | _ => return (path, none)

/-! ## Bounds -/

/-- A bound of a type parameter or of a trait object. -/
inductive Bound where
  | trait (endsInBrace : Bool)
  /-- A trait bound marked as `const`. -/
  | constTrait (endsInBrace : Bool)
  | lifetime
  /-- A list of captured parameters, as in `use<T>`. -/
  | capture

def Bound.endsInBrace : Bound → Bool
  | trait endsInBrace | constTrait endsInBrace => endsInBrace
  | lifetime | capture => false

/-- Which bounds a place admits besides traits and lifetimes. -/
structure BoundRules where
  capture : Bool
  const : Bool

namespace Bound

/-- The parameters after `for`, if there are any. -/
def parseBinder? (g : Grammar) : Parser Bool := do
  if ← word? "for" then
    punct "<"
    separatedUntil (Ahead.punct ">") "," (g .genericParam)
    punct ">"
    return true
  return false

/-- A trait bound, with its modifiers. -/
def parseTrait (g : Grammar) (rules : BoundRules) : Parser Bound := do
  let bound ← parseBinder? g
  let line ← here
  let isConst ←
    if Ahead.group .bracket (← look) then do
      inGroup .bracket (word "const")
      pure true
    else word? "const"
  if isConst && !rules.const then
    failAt line "`const` is not allowed here"
  let line ← here
  let optional ← punct? "?"
  let bound ← if optional && !bound then parseBinder? g else pure bound
  let path ← Path.parse g false
  let (path, _) ← path.parseCallArguments g
  if bound && optional then
    failAt line "`for<...>` binder not allowed with `?` trait polarity modifier"
  return if isConst then .constTrait path.endsInBrace else .trait path.endsInBrace

/-- The parameters between the angle brackets of `use<..>`. -/
def parseCapture : Parser Unit := do
  punct "<"
  separatedUntil (Ahead.punct ">") "," do
    let tokens ← look
    if Ahead.lifetime tokens then takeLifetime
    else if Ahead.ident tokens || Ahead.word "Self" tokens then
      let _ ← takeAnyIdent
    else fail "expected lifetime, identifier or `Self`"
  punct ">"

def parse (g : Grammar) (rules : BoundRules) : Parser Bound := do
  let tokens ← look
  if Ahead.lifetime tokens then
    takeLifetime
    return .lifetime
  if Ahead.word "use" tokens then
    let line ← here
    word "use"
    parseCapture
    unless rules.capture do
      failAt line "`use<...>` precise capturing syntax is not allowed here"
    return .capture
  if Ahead.group .paren tokens then inGroup .paren (parseTrait g rules)
  else parseTrait g rules

/-- Whether a bound may start here. -/
def starts (rules : BoundRules) (tokens : List Token) : Bool :=
  Ahead.identOrWord tokens || Ahead.punct "::" tokens || Ahead.punct "?" tokens ||
    Ahead.lifetime tokens || Ahead.group .paren tokens ||
    (rules.const && Ahead.group .bracket tokens)

/-- More bounds, each after a plus sign. Tells whether a plus sign comes last. -/
def parseMore (g : Grammar) (rules : BoundRules) (first : List Bound) :
    Parser (List Bound × Bool) := do
  let step (done : List Bound) : Parser (List Bound ⊕ List Bound × Bool) := do
    unless ← punct? "+" do return .inr (done.reverse, false)
    unless starts rules (← look) do return .inr (done.reverse, true)
    return .inl ((← parse g rules) :: done)
  loop step first.reverse

/-- A sum of bounds, or only one where there may be no plus sign. -/
def parseSum (g : Grammar) (rules : BoundRules) (allowPlus : Bool) :
    Parser (List Bound × Bool) := do
  let first ← parse g rules
  if allowPlus then parseMore g rules [first] else return ([first], false)

/-- Whether a bound makes a type of its own: a lifetime alone does not. -/
def isTrait : Bound → Bool
  | trait _ | constTrait _ => true
  | lifetime | capture => false

end Bound

/-- The bounds of a type parameter. -/
def BoundRules.param : BoundRules := ⟨false, true⟩

/-- The bounds of a trait object. -/
def BoundRules.object : BoundRules := ⟨false, false⟩

/-- The bounds after `impl`. -/
def BoundRules.impl : BoundRules := ⟨true, true⟩

/-! ## Generic arguments -/

/-- Whether a constant that is no plain identifier starts here. -/
def startsConst (tokens : List Token) : Bool :=
  Ahead.literal tokens || Ahead.group .brace tokens

/-- A constant: a literal, an identifier or a block. -/
def parseConst (g : Grammar) : Parser Unit := do
  let tokens ← look
  if Ahead.literal tokens then
    let _ ← takeLiteral
  else if Ahead.ident tokens then
    let _ ← takeIdent
  else if Ahead.group .brace tokens then
    let _ ← parseBody g
  else fail "expected literal, identifier or block"

/-- Whether a type is one identifier, perhaps with arguments in angle brackets. Such a name may be
    that of an associated item. -/
def Ty.isName : Ty → Bool
  | named ⟨false, [⟨_, .none⟩]⟩ => true
  | named ⟨false, [⟨_, .angled⟩]⟩ => true
  | _ => false

/-- A generic argument: a lifetime, a constant, a type, or what an associated item is or is bound
    by. -/
def parseGenericArgument (g : Grammar) : Parser Unit := do
  let tokens ← look
  if Ahead.lifetime tokens && !Ahead.punct "+" (Ahead.skip tokens) then takeLifetime
  else if startsConst tokens then parseConst g
  else
    let type ← g (.type true)
    if type.isName then
      if ← punct? "=" then
        if startsConst (← look) then parseConst g
        else
          let _ ← g (.type true)
      else if ← punct? ":" then
        separatedUnless (fun tokens => Ahead.punct "," tokens || Ahead.punct ">" tokens) "+" do
          let _ ← Bound.parse g .param

/-! ## Types -/

namespace Ty

/-- The word `extern` and a name, if they come next. -/
def parseAbi? : Parser Bool := do
  if ← word? "extern" then
    if Ahead.stringLiteral (← look) then
      let _ ← takeLiteral
    return true
  return false

/-- An argument of a function type: a type, perhaps named. The first may be `self`. -/
def parseFunctionArgument (g : Grammar) (first : Bool) : Parser Unit := do
  let tokens ← look
  let mutableSelf := first && Ahead.word "mut" tokens && Ahead.word "self" (Ahead.skip tokens)
  if mutableSelf then
    word "mut"
  let tokens ← look
  let named := (Ahead.ident tokens || Ahead.word "_" tokens || first && Ahead.word "self" tokens) &&
    Ahead.punct ":" (Ahead.skip tokens) && !Ahead.punct "::" (Ahead.skip tokens)
  if named then
    let _ ← takeAnyIdent
    punct ":"
    let _ ← g (.type true)
  else if mutableSelf then word "self"
  else
    let _ ← g (.type true)

/-- Whether the arguments of a function type end here in dots. -/
def startsVariadic (tokens : List Token) : Bool :=
  Ahead.punct "..." tokens ||
    (Ahead.ident tokens || Ahead.word "_" tokens) && Ahead.punct ":" (Ahead.skip tokens) &&
      Ahead.punct "..." (Ahead.skip (Ahead.skip tokens))

def parseFunctionArguments (g : Grammar) : Parser Unit := do
  let step (first : Bool) : Parser (Bool ⊕ Unit) := do
    if ← isEnd then return .inr ()
    let _ ← Attribute.parseOuter g
    let tokens ← look
    if startsVariadic tokens then
      if Ahead.identOrWord tokens then
        let _ ← takeAnyIdent
        punct ":"
      punct "..."
      let _ ← punct? ","
      return .inr ()
    parseFunctionArgument g first
    if ← isEnd then return .inr ()
    punct ","
    return .inl false
  loop step true

/-- A function type, from its qualifiers on. -/
def parseFunction (g : Grammar) : Parser Ty := do
  let _ ← word? "unsafe"
  let _ ← parseAbi?
  word "fn"
  inGroup .paren (parseFunctionArguments g)
  let result ← parseResult? g false
  return .other (result.any endsInBrace)

/-- The last of some bounds decides how the type ends. -/
def boundsEndInBrace (bounds : List Bound) : Bool :=
  bounds.getLast?.any Bound.endsInBrace

/-- The bounds of a trait object. One of them must be a trait. -/
def parseObject (g : Grammar) (line : Nat) (allowPlus : Bool) : Parser (List Bound × Bool) := do
  let (bounds, plus) ← Bound.parseSum g .object allowPlus
  unless bounds.any Bound.isTrait do
    failAt line "at least one trait is required for an object type"
  return (bounds, plus)

/-- A trait object without `dyn`, from its bounds. -/
def ofBounds (bounds : List Bound) (plus : Bool) : Ty :=
  .traitSum (bounds.length = 1 && !plus) (boundsEndInBrace bounds)

/-- More bounds after a group in parentheses, each after a plus sign. -/
def parseSumAfter (g : Grammar) (first : Bool) : Parser Ty := do
  let more ← manyWhile (Ahead.punct "+") do
    punct "+"
    Bound.parse g .object
  return .traitSum more.isEmpty ((more.getLast?.map Bound.endsInBrace).getD first)

/-- What the parentheses of a type hold. -/
inductive Parenthesized where
  | tuple
  | object
  /-- A bound with a question mark. -/
  | optional (endsInBrace : Bool)
  | type (type : Ty)

def parseParenthesized (g : Grammar) : Parser Parenthesized := do
  let tokens ← look
  if tokens.isEmpty then return .tuple
  if Ahead.lifetime tokens then
    let _ ← parseObject g (← here) true
    return .object
  if Ahead.punct "?" tokens then
    let bound ← Bound.parseTrait g .object
    return .optional bound.endsInBrace
  let first ← g (.type true)
  if ← punct? "," then
    let _ ← commaList (g (.type true))
    return .tuple
  return .type first

/-- A type that starts with a parenthesis. -/
def parseParen (g : Grammar) (allowPlus : Bool) : Parser Ty := do
  match ← inGroup .paren (parseParenthesized g) with
  | .tuple => return .other false
  | .object => return .parenthesized
  | .optional endsInBrace => parseSumAfter g endsInBrace
  | .type first =>
    if allowPlus && Ahead.punct "+" (← look) then
      match first with
      | .named p => parseSumAfter g p.endsInBrace
      | .traitSum true endsInBrace => parseSumAfter g endsInBrace
      | _ => return .parenthesized
    else return .parenthesized

/-- Whether a path starts here. -/
def startsPath (tokens : List Token) : Bool :=
  Ahead.ident tokens || Ahead.anyWord ["super", "self", "Self", "crate"] tokens

/-- A path as a type, with arguments in parentheses. Unless these have a result type without
    parentheses, more segments may follow. -/
def parsePath (g : Grammar) : Parser (Bool × Path) := do
  let (qualified, path) ← Path.parseQualified g false
  let (path, arguments) ← path.parseCallArguments g
  match arguments with
  | some none | some (some .parenthesized) => return (qualified, ← path.parseMore g false)
  | _ => return (qualified, path)

/-- A type that starts with a path: the path, a macro call, or a sum of bounds. -/
def parseNamed (g : Grammar) (binder allowPlus : Bool) : Parser Ty := do
  let (qualified, path) ← parsePath g
  if qualified then return .other path.endsInBrace
  let tokens ← look
  if Ahead.punct "!" tokens && !Ahead.punct "!=" tokens && path.isPlain then
    punct "!"
    let mac ← parseMacroBody path
    return .other (mac.delimiter = .brace)
  if binder || allowPlus && Ahead.punct "+" tokens then
    let first := [Bound.trait path.endsInBrace]
    let (bounds, plus) ← if allowPlus then Bound.parseMore g .object first else pure (first, false)
    return ofBounds bounds plus
  return .named path

/-- A type. -/
def parse (g : Grammar) (allowPlus : Bool) : Parser Ty := do
  let line ← here
  let binder ← Bound.parseBinder? g
  let tokens ← look
  if binder &&
      (!(startsPath tokens || Ahead.anyWord ["fn", "unsafe", "extern"] tokens) ||
        Ahead.word "dyn" tokens) then
    fail "expected function type or trait"
  else if Ahead.group .paren tokens then parseParen g allowPlus
  else if Ahead.anyWord ["fn", "unsafe", "extern"] tokens then parseFunction g
  else if startsPath tokens || Ahead.punct "::" tokens || Ahead.punct "<" tokens then
    parseNamed g binder allowPlus
  else if ← word? "dyn" then
    let _ ← punct? "*"
    let (bounds, _) ← parseObject g line allowPlus
    return .other (boundsEndInBrace bounds)
  else if Ahead.group .bracket tokens then
    inGroup .bracket do
      let _ ← g (.type true)
      if ← punct? ";" then
        let _ ← g (.expr true)
    return .other false
  else if ← punct? "*" then
    unless ← word? "const" do
      unless ← word? "mut" do fail "expected `const` or `mut`"
    return .other (← g (.type false)).endsInBrace
  else if ← punct? "&" then
    let _ ← takeLifetime?
    let _ ← word? "mut"
    return .other (← g (.type false)).endsInBrace
  else if Ahead.punct "!" tokens && !Ahead.punct "=" tokens then
    punct "!"
    return .other false
  else if ← word? "impl" then
    let (bounds, _) ← Bound.parseSum g .impl allowPlus
    unless bounds.any Bound.isTrait do
      failAt line "at least one trait must be specified"
    return .other (boundsEndInBrace bounds)
  else if ← word? "_" then return .other false
  else if Ahead.lifetime tokens then
    let (bounds, plus) ← parseObject g line allowPlus
    return ofBounds bounds plus
  else fail "expected type"

end Ty

/-! ## Generic parameters -/

/-- The bounds of a lifetime, until the test holds. -/
def parseLifetimeBounds (stop : List Token → Bool) : Parser Unit :=
  separatedUnless stop "+" takeLifetime

/-- The bounds of a type, until the test holds. -/
def parseTypeBounds (g : Grammar) (stop : List Token → Bool) : Parser Unit :=
  separatedUnless stop "+" do
    let _ ← Bound.parse g .param

def endsParamBounds (tokens : List Token) : Bool :=
  tokens.isEmpty || Ahead.punct "," tokens || Ahead.punct ">" tokens

/-- A parameter between angle brackets, after its attributes. -/
def parseGenericParamContent (g : Grammar) : Parser Unit := do
  let tokens ← look
  if Ahead.lifetime tokens then
    takeLifetime
    if ← punct? ":" then
      parseLifetimeBounds endsParamBounds
  else if Ahead.ident tokens then
    let _ ← takeIdent
    if ← punct? ":" then
      parseTypeBounds g fun tokens => endsParamBounds tokens || Ahead.punct "=" tokens
    if ← punct? "=" then
      let _ ← g (.type true)
  else if ← word? "const" then
    let _ ← takeIdent
    punct ":"
    let _ ← g (.type true)
    if ← punct? "=" then
      parseConst g
  else fail "expected lifetime, identifier or `const`"

def parseGenericParam (g : Grammar) : Parser Unit := do
  let _ ← Attribute.parseOuter g
  parseGenericParamContent g

/-- The parameters of an item: how many there are, or nothing without angle brackets. -/
def parseGenerics? (g : Grammar) : Parser (Option Nat) := do
  unless ← punct? "<" do return none
  let step (count : Nat) : Parser (Nat ⊕ Nat) := do
    if Ahead.punct ">" (← look) then return .inr count
    let _ ← Attribute.parseOuter g
    unless ← word? "_" do parseGenericParamContent g
    if Ahead.punct ">" (← look) then return .inr (count + 1)
    punct ","
    return .inl (count + 1)
  let count ← loop step 0
  punct ">"
  return some count

/-- Whether angle brackets that come next hold generic parameters, rather than the type that a
    qualified path starts from. -/
def startsGenerics (tokens : List Token) : Bool :=
  let second := Ahead.skip tokens
  let third := Ahead.skip second
  Ahead.punct "<" tokens &&
    (Ahead.punct ">" second || Ahead.punct "#" second ||
      (Ahead.lifetime second || Ahead.ident second) &&
        (Ahead.punct ">" third || Ahead.punct "," third ||
          Ahead.punct ":" third && !Ahead.punct "::" third || Ahead.punct "=" third) ||
      Ahead.word "const" second)

/-- Whether a `where` clause, or the bounds of one of its types, ends here. -/
def endsWhere (tokens : List Token) : Bool :=
  tokens.isEmpty || Ahead.group .brace tokens || Ahead.punct "," tokens || Ahead.punct ";" tokens ||
    Ahead.punct ":" tokens && !Ahead.punct "::" tokens || Ahead.punct "=" tokens

def parsePredicate (g : Grammar) : Parser Unit := do
  let tokens ← look
  if Ahead.lifetime tokens && Ahead.punct ":" (Ahead.skip tokens) then
    takeLifetime
    punct ":"
    parseLifetimeBounds fun tokens => endsWhere tokens || Ahead.punct ":" tokens
  else
    let _ ← Bound.parseBinder? g
    let _ ← g (.type true)
    punct ":"
    parseTypeBounds g endsWhere

/-- A `where` clause, if there is one. -/
def parseWhere? (g : Grammar) : Parser Bool := do
  unless ← word? "where" do return false
  if startsGenerics (← look) then
    fail "generic parameters on `where` clauses are reserved for future use"
  separatedUnless endsWhere "," (parsePredicate g)
  return true

end JobRoster.Syntax
