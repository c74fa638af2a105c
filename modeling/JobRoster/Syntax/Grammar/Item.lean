import JobRoster.Syntax.Grammar.Expr

/-!
# Rules for items

Items of a file or module, and those inside traits, implementations and blocks of foreign items.
Which item it is shows after its visibility, so the rules look ahead past that.
-/

namespace JobRoster.Syntax

open Syntax.Parser

/-! ## Visibility -/

/-- The module that a visibility is restricted to, between its parentheses. Without `in` it must be
    one word, or the parentheses belong to what follows. -/
def parseRestriction : Parser (Option Path) := do
  if ← word? "in" then return some (← Path.parsePlain)
  if Ahead.anyWord ["crate", "self", "super"] (← look) then
    let path ← Path.parseWord
    if ← isEnd then return some path
  failAt 0 "expected a restriction"

/-- Whether the group that comes next starts with `in`. -/
def startsInPath : List Token → Bool
  | .group .paren content _ _ :: _ => Ahead.word "in" content
  | _ => false

def Visibility.parse : Parser Visibility := do
  unless ← word? "pub" do return .inherited
  if startsInPath (← look) then
    match ← inGroup .paren parseRestriction with
    | some path => return .restricted path
    | none => return .visible
  else
    match ← attempt (inGroup .paren parseRestriction) with
    | some (some path) => return .restricted path
    | _ => return .visible

/-! ## Functions -/

/-- The receiver of a method, read only if it is whole. -/
def parseReceiver (g : Grammar) : Parser Unit := do
  let reference ← punct? "&"
  if reference then
    let _ ← takeLifetime?
  let _ ← word? "mut"
  word "self"
  unless reference do
    if ← punct? ":" then
      let _ ← g (.type true)

/-- What the parameters of a function look like so far. -/
structure Parameters where
  any : Bool
  receiver : Bool

/-- One parameter after its attributes: a receiver, a pattern with a type, or a type alone that has
    arguments. Gives nothing for dots, which end the list. -/
def parseParameter (g : Grammar) (before : Parameters) : Parser (Option Parameters) := do
  let tokens ← look
  let line := ((Ahead.skipIf (Ahead.word "mut") (Ahead.skipIf Ahead.lifetime
    (Ahead.skipIf (Ahead.punct "&") tokens))).head?.map Token.line).getD 0
  match ← attempt (parseReceiver g) with
  | some _ =>
    if before.receiver then failAt line "unexpected second method receiver"
    else if before.any then failAt line "unexpected method receiver"
    else return some ⟨true, true⟩
  | none =>
    if Ahead.ident tokens && Ahead.punct "<" (Ahead.skip tokens) then
      let _ ← g (.type true)
    else
      let _ ← g .pattern
      punct ":"
      if ← punct? "..." then return none
      let _ ← g (.type true)
    return some { before with any := true }

/-- The parameters between the parentheses of a function. -/
def parseParameters (g : Grammar) : Parser Unit := do
  let step (before : Parameters) : Parser (Parameters ⊕ Unit) := do
    if ← isEnd then return .inr ()
    let _ ← Attribute.parseOuter g
    let dots ← punct? "..."
    match ← if dots then pure none else parseParameter g before with
    | none =>
      unless ← isEnd do punct ","
      return .inr ()
    | some after =>
      if ← isEnd then return .inr ()
      punct ","
      return .inl after
  loop step ⟨false, false⟩

/-- Everything of a function before its body, and its name. Foreign functions may be marked as
    safe. -/
def parseSignature (g : Grammar) (allowSafe : Bool) : Parser Ident := do
  let _ ← word? "const"
  let _ ← word? "async"
  let notSafe ← word? "unsafe"
  if allowSafe && !notSafe then
    let _ ← word? "safe"
  let _ ← Ty.parseAbi?
  word "fn"
  let ident ← takeIdent
  let _ ← parseGenerics? g
  inGroup .paren (parseParameters g)
  let _ ← parseResult? g true
  let _ ← parseWhere? g
  return ident

/-- Whether a function starts here. -/
def startsSignature (allowSafe : Bool) (tokens : List Token) : Bool :=
  let tokens := Ahead.skipIf (Ahead.word "async") (Ahead.skipIf (Ahead.word "const") tokens)
  let tokens :=
    if allowSafe && Ahead.word "safe" tokens then Ahead.skip tokens
    else Ahead.skipIf (Ahead.word "unsafe") tokens
  let tokens :=
    if Ahead.word "extern" tokens then Ahead.skipIf Ahead.stringLiteral (Ahead.skip tokens)
    else tokens
  Ahead.word "fn" tokens

/-! ## Constants and type aliases -/

/-- A constant, from `const` on: its name, and its value unless it has none or has parameters of its
    own. -/
def parseConstItem (g : Grammar) : Parser (Ident × Option Expr) := do
  word "const"
  let tokens ← look
  let ident ← if Ahead.word "_" tokens then takeAnyIdent else takeIdent
  let generics ← parseGenerics? g
  punct ":"
  let _ ← g (.type true)
  let value ← if ← punct? "=" then do pure (some (← g (.expr true))) else pure none
  let clause ← parseWhere? g
  punct ";"
  return (ident, if generics.isSome || clause then none else value)

/-- Where the `where` clause of a type alias may stand. -/
structure ClausePlace where
  before : Bool
  after : Bool

/-- A type alias, from its visibility on: its name, if it is nothing but another type. -/
def parseTypeAlias (g : Grammar) (allowDefault : Bool) (place : ClausePlace) :
    Parser (Option Ident) := do
  let _ ← Visibility.parse
  if allowDefault then
    let _ ← word? "default"
  word "type"
  let ident ← takeIdent
  let _ ← parseGenerics? g
  let bounded ← punct? ":"
  if bounded then
    separatedUntil
      (fun tokens => Ahead.word "where" tokens || Ahead.punct "=" tokens || Ahead.punct ";" tokens)
      "+" do
        let _ ← Bound.parse g .param
  let clause ← if place.before then parseWhere? g else pure false
  let defined ← punct? "="
  if defined then
    let _ ← g (.type true)
  if place.after && !clause then
    let _ ← parseWhere? g
  punct ";"
  return if defined && !bounded then some ident else none

/-! ## Macro calls -/

/-- Whether a macro call that is an item starts here. -/
def startsMacroItem (tokens : List Token) : Bool :=
  Ahead.ident tokens || Ahead.anyWord ["self", "super", "crate"] tokens || Ahead.punct "::" tokens

/-- A macro call as an item; unless its body is in braces, a semicolon follows. An item of a module
    may define a name. -/
def parseMacroItem (allowName : Bool) : Parser Unit := do
  let path ← Path.parsePlain
  punct "!"
  let tokens ← look
  if allowName && (Ahead.ident tokens || Ahead.word "try" tokens) then
    let _ ← takeAnyIdent
  let mac ← parseMacroBody path
  unless mac.delimiter = .brace do punct ";"

/-- The definition of a macro by example, in the newer form. -/
def parseMacroDefinition : Parser Unit := do
  word "macro"
  let _ ← takeIdent
  let tokens ← look
  if Ahead.group .paren tokens then
    let _ ← anyGroup
  if Ahead.group .brace (← look) then
    let _ ← anyGroup
  else fail "expected a body in braces"

/-! ## Items of traits, implementations and foreign blocks -/

def parseTraitItem (g : Grammar) : Parser Unit := do
  let _ ← Attribute.parseOuter g
  let visibility ← Visibility.parse
  let isDefault ← word? "default"
  let tokens ← look
  let second := Ahead.skip tokens
  if startsSignature false tokens then
    let _ ← parseSignature g false
    if Ahead.group .brace (← look) then
      let _ ← parseBody g
    else punct ";"
  else if Ahead.word "const" tokens then
    if Ahead.anyWord ["async", "unsafe", "extern", "fn"] second then
      let _ ← parseSignature g false
    else
      let _ ← parseConstItem g
  else if Ahead.word "type" tokens then
    let _ ← parseTypeAlias g false ⟨false, true⟩
  else
    match visibility with
    | .inherited =>
      if !isDefault && startsMacroItem tokens then parseMacroItem false
      else fail "expected an item of a trait"
    | _ => fail "expected an item of a trait"

/-- An item of an implementation: its name and statements if it is a function with a body. -/
def parseImplItem (g : Grammar) : Parser (Option (Ident × List Stmt)) := do
  let _ ← Attribute.parseOuter g
  let (visibility, isDefault, tokens) ← lookAhead do
    let visibility ← Visibility.parse
    let tokens ← look
    if Ahead.word "default" tokens && !Ahead.punct "!" (Ahead.skip tokens) then
      return (visibility, true, Ahead.skip tokens)
    return (visibility, false, tokens)
  if startsSignature false tokens then
    let _ ← Visibility.parse
    let _ ← word? "default"
    let ident ← parseSignature g false
    if ← punct? ";" then return none
    let (_, body) ← parseBody g
    return some (ident, body)
  if Ahead.word "const" tokens then
    continueAt tokens
    let _ ← parseConstItem g
    return none
  if Ahead.word "type" tokens then
    let _ ← parseTypeAlias g true ⟨false, true⟩
    return none
  match visibility with
  | .inherited =>
    if !isDefault && startsMacroItem tokens then
      parseMacroItem false
      return none
    continueAt tokens
    fail "expected an item of an implementation"
  | _ =>
    continueAt tokens
    fail "expected an item of an implementation"

def parseForeignItem (g : Grammar) : Parser Unit := do
  let _ ← Attribute.parseOuter g
  let (visibility, tokens) ← lookAhead do
    let visibility ← Visibility.parse
    return (visibility, ← look)
  let second := Ahead.skip tokens
  if startsSignature true tokens then
    let _ ← Visibility.parse
    let _ ← parseSignature g true
    if Ahead.group .brace (← look) then
      let _ ← parseBody g
    else punct ";"
  else if Ahead.word "static" tokens ||
      Ahead.anyWord ["unsafe", "safe"] tokens && Ahead.word "static" second then
    let _ ← Visibility.parse
    unless ← word? "unsafe" do
      let _ ← word? "safe"
    word "static"
    let _ ← word? "mut"
    let _ ← takeIdent
    punct ":"
    let _ ← g (.type true)
    if ← punct? "=" then
      let _ ← g (.expr true)
    punct ";"
  else if Ahead.word "type" tokens then
    let _ ← parseTypeAlias g false ⟨true, true⟩
  else
    match visibility with
    | .inherited =>
      if startsMacroItem tokens then parseMacroItem false else fail "expected a foreign item"
    | _ =>
      continueAt tokens
      fail "expected a foreign item"

/-! ## Type declarations -/

/-- A field between braces. One without a name may be a struct or union in place. -/
def parseNamedField (g : Grammar) : Parser Unit := do
  let _ ← Attribute.parseOuter g
  let _ ← Visibility.parse
  let unnamed ← word? "_"
  unless unnamed do
    let _ ← takeIdent
  punct ":"
  let tokens ← look
  if unnamed && (Ahead.word "struct" tokens ||
      Ahead.word "union" tokens && Ahead.group .brace (Ahead.skip tokens)) then
    let _ ← takeAnyIdent
    g .namedFields
  else
    let _ ← g (.type true)

def parseNamedFields (g : Grammar) : Parser Unit := do
  let _ ← inGroup .brace (commaList (parseNamedField g))

def parseTupleFields (g : Grammar) : Parser Unit := do
  let _ ← inGroup .paren do
    commaList do
      let _ ← Attribute.parseOuter g
      let _ ← Visibility.parse
      g (.type true)

/-- A struct after its parameters. A clause comes before fields in braces and after fields in
    parentheses. -/
def parseStructBody (g : Grammar) : Parser Unit := do
  let clause ← parseWhere? g
  let tokens ← look
  if !clause && Ahead.group .paren tokens then
    parseTupleFields g
    let _ ← parseWhere? g
    punct ";"
  else if Ahead.group .brace tokens then parseNamedFields g
  else punct ";"

def parseVariant (g : Grammar) : Parser Unit := do
  let _ ← Attribute.parseOuter g
  let _ ← Visibility.parse
  let _ ← takeIdent
  let tokens ← look
  if Ahead.group .brace tokens then parseNamedFields g
  else if Ahead.group .paren tokens then parseTupleFields g
  if ← punct? "=" then
    let _ ← g (.expr true)

/-- A trait after its parameters: the attributes inside it. -/
def parseTraitBody (g : Grammar) : Parser (List Attribute) := do
  if ← punct? ":" then
    separatedUntil (fun tokens => Ahead.word "where" tokens || Ahead.group .brace tokens) "+" do
      let _ ← Bound.parse g .param
  let _ ← parseWhere? g
  inGroup .brace do
    let attributes ← Attribute.parseInner g
    let _ ← untilEnd (parseTraitItem g)
    return attributes

/-- An alias for a sum of bounds, from the equals sign on. -/
def parseTraitAlias (g : Grammar) : Parser Unit := do
  punct "="
  separatedUntil (fun tokens => Ahead.word "where" tokens || Ahead.punct ";" tokens) "+" do
    let _ ← Bound.parse g .param
  let _ ← parseWhere? g
  punct ";"

/-- The word of a declaration, its name with its line, and its parameters. -/
def parseDeclHead (g : Grammar) (spelling : String) : Parser (Ident × Nat × Nat) := do
  word spelling
  let line ← here
  let ident ← takeIdent
  let generics ← parseGenerics? g
  return (ident, line, generics.getD 0)

/-! ## Imports -/

/-- The name that an import is given, which may be an underscore. -/
def parseNewName : Parser Ident := do
  if Ahead.word "_" (← look) then takeAnyIdent else takeIdent

/-- The trees of a group. Where one starts at a crate root, they make no tree. -/
def parseUseGroup (g : Grammar) (allowCrateRoot : Bool) : Parser (Option UseTree) := do
  let trees ← commaList do
    let atRoot ← if allowCrateRoot then punct? "::" else pure false
    let tree ← g (.useTree (allowCrateRoot && !atRoot))
    return if atRoot then none else tree
  return (trees.mapM id).map .group

def UseTree.parse (g : Grammar) (allowCrateRoot : Bool) : Parser (Option UseTree) := do
  let tokens ← look
  if Ahead.ident tokens || Ahead.anyWord ["self", "super", "crate", "try"] tokens then
    let ident ← takeAnyIdent
    if ← punct? "::" then
      return (← g (.useTree false)).map (.path ident)
    else if ← word? "as" then return some (.rename ident (← parseNewName))
    else return some (.name ident)
  else if ← punct? "*" then return some .glob
  else if Ahead.group .brace tokens then inGroup .brace (parseUseGroup g allowCrateRoot)
  else fail "expected an import"

/-! ## Items -/

/-- Which of an implementation's parts cannot be kept: it is then an unknown item. -/
structure ImplForm where
  visibility : Bool
  const : Bool

/-- An implementation: the attributes inside it and what it implements, unless it has a form that
    means nothing here. -/
def parseImpl (g : Grammar) : Parser (List Attribute × Option Impl) := do
  let visibility ← Visibility.parse
  let _ ← word? "default"
  let _ ← word? "unsafe"
  word "impl"
  if startsGenerics (← look) then
    let _ ← parseGenerics? g
  let tokens ← look
  let isConst := Ahead.word "const" tokens ||
    Ahead.punct "?" tokens && Ahead.word "const" (Ahead.skip tokens)
  if isConst then
    let _ ← punct? "?"
    word "const"
  let tokens ← look
  let line ← here
  let negative := Ahead.punct "!" tokens && !Ahead.group .brace (Ahead.skip tokens)
  if negative then
    punct "!"
  let first ← g (.type true)
  let (traitPath, target, known) ←
    if ← word? "for" then do
      let target ← g (.type true)
      match first with
      | .named path => pure (some path, target, true)
      | _ => pure (none, target, false)
    else if negative then failAt line "inherent impls cannot be negative"
    else pure (none, first, true)
  let _ ← parseWhere? g
  inGroup .brace do
    let attributes ← Attribute.parseInner g
    let items ← untilEnd (parseImplItem g)
    let plain := match visibility with
      | .inherited => true
      | _ => false
    let content : Impl := ⟨traitPath, target, items.filterMap id⟩
    return (attributes, if plain && !isConst && known then some content else none)

/-- A block of foreign items: the attributes inside it. -/
def parseForeignBlock (g : Grammar) : Parser (List Attribute) := do
  let _ ← word? "unsafe"
  unless ← Ty.parseAbi? do fail "expected `extern`"
  inGroup .brace do
    let attributes ← Attribute.parseInner g
    let _ ← untilEnd (parseForeignItem g)
    return attributes

def parseModule (g : Grammar) (attributes : List Attribute) : Parser Item := do
  let visibility ← Visibility.parse
  let _ ← word? "unsafe"
  word "mod"
  let ident ← if Ahead.word "try" (← look) then takeAnyIdent else takeIdent
  if ← punct? ";" then return .module attributes visibility ident none
  inGroup .brace do
    let inner ← Attribute.parseInner g
    let items ← untilEnd (g .item)
    return .module (attributes ++ inner) visibility ident (some items)

/-- A type declaration from its visibility on. -/
def parseDecl (g : Grammar) (attributes : List Attribute) (kind : TypeKind) (spelling : String)
    (body : Parser (List Attribute)) : Parser Item := do
  let visibility ← Visibility.parse
  let (ident, line, generics) ← parseDeclHead g spelling
  let inner ← body
  return .plain (attributes ++ inner) visibility (.type kind ident line generics)

def parseEnumBody (g : Grammar) : Parser Unit := do
  let _ ← parseWhere? g
  let _ ← inGroup .brace (commaList (parseVariant g))

def parseUnionBody (g : Grammar) : Parser Unit := do
  let _ ← parseWhere? g
  parseNamedFields g

/-- A trait that is no alias, with its qualifiers. -/
def parseTrait (g : Grammar) (attributes : List Attribute) : Parser Item := do
  let visibility ← Visibility.parse
  let _ ← word? "unsafe"
  let _ ← word? "auto"
  let (ident, line, generics) ← parseDeclHead g "trait"
  let inner ← parseTraitBody g
  return .plain (attributes ++ inner) visibility (.type .trait ident line generics)

/-- A trait or an alias for one. -/
def parseTraitOrAlias (g : Grammar) (attributes : List Attribute) : Parser Item := do
  let visibility ← Visibility.parse
  let (ident, line, generics) ← parseDeclHead g "trait"
  if Ahead.punct "=" (← look) then
    parseTraitAlias g
    return .plain attributes visibility .other
  let inner ← parseTraitBody g
  return .plain (attributes ++ inner) visibility (.type .trait ident line generics)

def parseStatic (g : Grammar) (attributes : List Attribute) : Parser Item := do
  let visibility ← Visibility.parse
  word "static"
  let _ ← word? "mut"
  let ident ← takeIdent
  if ← punct? "=" then
    let _ ← g (.expr true)
    punct ";"
    return .unknown
  punct ":"
  let _ ← g (.type true)
  if ← punct? ";" then return .unknown
  punct "="
  let _ ← g (.expr true)
  punct ";"
  return .plain attributes visibility (.named ident)

def parseUse (g : Grammar) (attributes : List Attribute) : Parser Item := do
  let visibility ← Visibility.parse
  word "use"
  let leadingColon ← punct? "::"
  let tree ← UseTree.parse g (!leadingColon)
  punct ";"
  match tree with
  | some tree => return .plain attributes visibility (.useTree leadingColon tree)
  | none => return .unknown

def parseExternCrate (attributes : List Attribute) : Parser Item := do
  let visibility ← Visibility.parse
  word "extern"
  word "crate"
  let ident ← if Ahead.word "self" (← look) then takeAnyIdent else takeIdent
  let newName ← if ← word? "as" then do pure (some (← parseNewName)) else pure none
  punct ";"
  return .plain attributes visibility (.externCrate ident newName)

def parseFunction (g : Grammar) (attributes : List Attribute) : Parser Item := do
  let visibility ← Visibility.parse
  let ident ← parseSignature g false
  if ← punct? ";" then return .unknown
  let (inner, _) ← parseBody g
  return .plain (attributes ++ inner) visibility (.named ident)

def parseImplItemOf (g : Grammar) (attributes : List Attribute) : Parser Item := do
  match ← parseImpl g with
  | (inner, some content) => return .plain (attributes ++ inner) .inherited (.impl content)
  | (_, none) => return .unknown

def parseForeign (g : Grammar) (attributes : List Attribute) : Parser Item := do
  let inner ← parseForeignBlock g
  return .plain (attributes ++ inner) .inherited .other

namespace Item

/-- What an item that starts with `extern`, after its visibility, turns out to be. -/
def parseExtern (g : Grammar) (attributes : List Attribute) (tokens : List Token) :
    Parser Item := do
  let second := Ahead.skip tokens
  if Ahead.word "crate" second then parseExternCrate attributes
  else
    let body := Ahead.skipIf Ahead.stringLiteral second
    if Ahead.group .brace body then parseForeign g attributes
    else
      continueAt body
      fail "expected `crate` or a block"

/-- What an item that starts with `unsafe`, after its visibility, turns out to be. -/
def parseUnsafe (g : Grammar) (attributes : List Attribute) (tokens : List Token) :
    Parser Item := do
  let second := Ahead.skip tokens
  if Ahead.word "trait" second ||
      Ahead.word "auto" second && Ahead.word "trait" (Ahead.skip second) then
    parseTrait g attributes
  else if Ahead.word "impl" second then parseImplItemOf g attributes
  else if Ahead.word "extern" second then parseForeign g attributes
  else if Ahead.word "mod" second then parseModule g attributes
  else
    continueAt second
    fail "expected `trait`, `impl`, `extern` or `mod`"

/-- An item after its attributes. -/
def parseAfter (g : Grammar) (attributes : List Attribute) : Parser Item := do
  let (visibility, tokens) ← lookAhead do
    let visibility ← Visibility.parse
    return (visibility, ← look)
  let second := Ahead.skip tokens
  if startsSignature false tokens then parseFunction g attributes
  else if Ahead.word "extern" tokens then parseExtern g attributes tokens
  else if Ahead.word "use" tokens then parseUse g attributes
  else if Ahead.word "static" tokens then parseStatic g attributes
  else if Ahead.word "const" tokens then
    let visibility ← Visibility.parse
    match ← parseConstItem g with
    | (ident, some value) => return .plain attributes visibility (.const ident value)
    | (_, none) => return .unknown
  else if Ahead.word "unsafe" tokens then parseUnsafe g attributes tokens
  else if Ahead.word "mod" tokens then parseModule g attributes
  else if Ahead.word "type" tokens then
    let visibility ← lookAhead Visibility.parse
    match ← parseTypeAlias g false ⟨true, false⟩ with
    | some ident => return .plain attributes visibility (.named ident)
    | none => return .unknown
  else if Ahead.word "struct" tokens then
    parseDecl g attributes .struct "struct" do
      parseStructBody g
      return []
  else if Ahead.word "enum" tokens then
    parseDecl g attributes .enum "enum" do
      parseEnumBody g
      return []
  else if Ahead.word "union" tokens && Ahead.ident second then
    parseDecl g attributes .union "union" do
      parseUnionBody g
      return []
  else if Ahead.word "trait" tokens then parseTraitOrAlias g attributes
  else if Ahead.word "auto" tokens && Ahead.word "trait" second then parseTrait g attributes
  else if Ahead.word "impl" tokens ||
      Ahead.word "default" tokens && !Ahead.punct "!" second then
    parseImplItemOf g attributes
  else if Ahead.word "macro" tokens then
    continueAt tokens
    parseMacroDefinition
    return .unknown
  else
    match visibility with
    | .inherited =>
      if startsMacroItem tokens then
        parseMacroItem true
        return .plain attributes .inherited .other
      fail "expected an item"
    | _ =>
      continueAt tokens
      fail "expected an item"

def parse (g : Grammar) : Parser Item := do
  parseAfter g (← Attribute.parseOuter g)

end Item

end JobRoster.Syntax
