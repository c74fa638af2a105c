import JobRoster.Syntax.Token

/-!
# Parsers over tokens

A parser reads the tokens of one group. It fails with the line of the token it stops at, or with
the line where the group closes if it runs out of tokens. Tokens that are left over when a group
has been read are not an error at once: the first of them is remembered as a stray, and reported
if nothing else fails.
-/

namespace JobRoster.Syntax

/-- What is left of the group being read. -/
structure Input where
  tokens : List Token
  /-- The line to report when the tokens run out. -/
  close : Nat
  /-- The line of the first token that some group inside left over. -/
  stray : Option Nat

def Parser (α : Type) : Type :=
  Input → Except SyntaxError (α × Input)

/-! ## Tests on the tokens ahead -/

namespace Ahead

/-- The tokens after the first one; a lifetime counts as one token. -/
def skip : List Token → List Token
  | .punct '\'' true _ :: .ident _ _ :: tokens => tokens
  | _ :: tokens => tokens
  | [] => []

/-- Whether `chars` come next, each joint to the one after it. -/
def punctChars : List Char → List Token → Bool
  | [c], .punct found _ _ :: _ => found = c
  | c :: cs, .punct found joint _ :: tokens => found = c && joint && punctChars cs tokens
  | _, _ => false

/-- Whether the punctuation comes next; it may run on into a longer operator. -/
def punct (spelling : String) (tokens : List Token) : Bool :=
  punctChars spelling.toList tokens

/-- Whether an identifier comes next that is spelled so. -/
def word (spelling : String) : List Token → Bool
  | .ident ident _ :: _ => ident.text = spelling
  | _ => false

def anyWord (spellings : List String) (tokens : List Token) : Bool :=
  spellings.any (word · tokens)

/-- Words that are no identifiers. -/
def reserved : List String :=
  ["_", "abstract", "as", "async", "await", "become", "box", "break", "const", "continue", "crate",
    "do", "dyn", "else", "enum", "extern", "false", "final", "fn", "for", "if", "impl", "in", "let",
    "loop", "macro", "match", "mod", "move", "mut", "override", "priv", "pub", "ref", "return",
    "Self", "self", "static", "struct", "super", "trait", "true", "try", "type", "typeof", "unsafe",
    "unsized", "use", "virtual", "where", "while", "yield"]

/-- Whether an identifier comes next that is not reserved. -/
def ident : List Token → Bool
  | .ident ident _ :: _ => !reserved.contains ident.text
  | _ => false

/-- Whether an identifier comes next, reserved or not. -/
def identOrWord : List Token → Bool
  | .ident _ _ :: _ => true
  | _ => false

def lifetime : List Token → Bool
  | .punct '\'' true _ :: .ident _ _ :: _ => true
  | _ => false

/-- The literal that comes next, a boolean or a negative number included, and what follows it. -/
def literal? : List Token → Option (Literal × List Token)
  | .literal value _ :: tokens => some (value, tokens)
  | .ident ident _ :: tokens =>
    if ident.text = "true" then some (.bool true, tokens)
    else if ident.text = "false" then some (.bool false, tokens)
    else none
  | .punct '-' _ _ :: .literal value _ :: tokens => value.negate?.map (·, tokens)
  | _ => none

def literal (tokens : List Token) : Bool :=
  (literal? tokens).isSome

def stringLiteral : List Token → Bool
  | .literal (.str _) _ :: _ => true
  | _ => false

def group (delimiter : Delimiter) : List Token → Bool
  | .group found _ _ _ :: _ => found = delimiter
  | _ => false

/-- The tokens after the first one, if it passes the test. -/
def skipIf (test : List Token → Bool) (tokens : List Token) : List Token :=
  if test tokens then skip tokens else tokens

end Ahead

/-! ## Sequencing -/

namespace Parser

instance : Monad Parser where
  pure a := fun input => .ok (a, input)
  bind p f := fun input =>
    match p input with
    | .ok (a, rest) => f a rest
    | .error e => .error e

theorem pure_apply {α : Type} (a : α) (input : Input) :
    (pure a : Parser α) input = .ok (a, input) := rfl

theorem bind_apply {α β : Type} (p : Parser α) (f : α → Parser β) (input : Input) :
    (p >>= f) input =
      match p input with
      | .ok (a, rest) => f a rest
      | .error e => .error e := rfl

/-- The tokens that are left. -/
def look : Parser (List Token) :=
  fun input => .ok (input.tokens, input)

/-- Goes on with other tokens. -/
def continueAt (tokens : List Token) : Parser Unit :=
  fun input => .ok ((), { input with tokens })

def failAt {α : Type} (line : Nat) (message : String) : Parser α :=
  fun _ => .error ⟨line, message⟩

/-- The line of the next token, or of the end. -/
def here : Parser Nat :=
  fun input => .ok ((input.tokens.head?.map Token.line).getD input.close, input)

/-- Fails at the next token, or at the end. -/
def fail {α : Type} (message : String) : Parser α := do
  failAt (← here) message

def isEnd : Parser Bool :=
  return (← look).isEmpty

/-- Tells what `p` would give here, and reads nothing. -/
def lookAhead {α : Type} (p : Parser α) : Parser α :=
  fun input =>
    match p input with
    | .ok (a, _) => .ok (a, input)
    | .error e => .error e

/-- Reads `p` if it succeeds, and nothing otherwise. -/
def attempt {α : Type} (p : Parser α) : Parser (Option α) :=
  fun input =>
    match p { input with stray := none } with
    | .ok (a, rest) => .ok (some a, { rest with stray := input.stray <|> rest.stray })
    | .error _ => .ok (none, input)

/-! ## Single tokens -/

/-- Reads the punctuation if it comes next. -/
def punct? (spelling : String) : Parser Bool := do
  let tokens ← look
  if Ahead.punct spelling tokens then
    continueAt (tokens.drop spelling.length)
    return true
  return false

def punct (spelling : String) : Parser Unit := do
  unless ← punct? spelling do fail ("expected `" ++ spelling ++ "`")

/-- Reads the word if it comes next. -/
def word? (spelling : String) : Parser Bool := do
  let tokens ← look
  if Ahead.word spelling tokens then
    continueAt (tokens.drop 1)
    return true
  return false

def word (spelling : String) : Parser Unit := do
  unless ← word? spelling do fail ("expected `" ++ spelling ++ "`")

/-- Any identifier, reserved or not. -/
def takeAnyIdent : Parser Ident := do
  match ← look with
  | .ident ident _ :: tokens => continueAt tokens; return ident
  | _ => fail "expected identifier"

def takeIdent : Parser Ident := do
  if Ahead.ident (← look) then takeAnyIdent else fail "expected identifier"

def takeLifetime : Parser Unit := do
  let tokens ← look
  if Ahead.lifetime tokens then continueAt (Ahead.skip tokens) else fail "expected lifetime"

/-- Reads a lifetime if one comes next. -/
def takeLifetime? : Parser Bool := do
  if Ahead.lifetime (← look) then
    takeLifetime
    return true
  return false

def takeLiteral : Parser Literal := do
  match Ahead.literal? (← look) with
  | some (value, tokens) => continueAt tokens; return value
  | none => fail "expected literal"

/-! ## Groups -/

/-- Remembers the first token that a group left over. -/
def noteStray (stray : Option Nat) : List Token → Option Nat
  | [] => stray
  | token :: _ => stray <|> some token.line

/-- Reads a group with the given delimiter, and `p` inside it. -/
def inGroup {α : Type} (delimiter : Delimiter) (p : Parser α) : Parser α := do
  match ← look with
  | .group found content _ close :: tokens =>
    if found = delimiter then
      fun input =>
        match p ⟨content, close, input.stray⟩ with
        | .ok (a, inner) =>
          .ok (a, { input with tokens, stray := noteStray inner.stray inner.tokens })
        | .error e => .error e
    else fail "expected other delimiter"
  | _ => fail "expected delimiter"

/-- Any group, unread: its delimiter, its tokens, and where it closes. -/
def anyGroup : Parser (Delimiter × List Token × Nat) := do
  match ← look with
  | .group delimiter content _ close :: tokens =>
    continueAt tokens
    return (delimiter, content, close)
  | _ => fail "expected delimiter"

/-! ## Repetition -/

/-- Repeats a step until it gives a result, at most `turns` times. -/
def iterate {σ α : Type} (step : σ → Parser (σ ⊕ α)) : (turns : Nat) → σ → Parser α
  | 0, _ => fail "input does not end"
  | turns + 1, state => do
    match ← step state with
    | .inl state => iterate step turns state
    | .inr a => return a

/-- Repeats a step until it gives a result. A step that goes on reads a token, so there are no more
    steps than tokens. -/
def loop {σ α : Type} (step : σ → Parser (σ ⊕ α)) (state : σ) : Parser α := do
  iterate step ((← look).length + 2) state

/-- Reads `p` as often as the test holds. -/
def manyWhile {α : Type} (test : List Token → Bool) (p : Parser α) : Parser (List α) := do
  let step (done : List α) : Parser (List α ⊕ List α) := do
    if test (← look) then return .inl ((← p) :: done) else return .inr done.reverse
  loop step []

/-- Reads `p` until the end. -/
def untilEnd {α : Type} (p : Parser α) : Parser (List α) :=
  manyWhile (!·.isEmpty) p

/-- Reads `p` until the end, with commas between and perhaps after. -/
def commaList {α : Type} (p : Parser α) : Parser (List α) := do
  let step (done : List α) : Parser (List α ⊕ List α) := do
    if ← isEnd then return .inr done.reverse
    let a ← p
    if ← isEnd then return .inr (a :: done).reverse
    punct ","
    return .inl (a :: done)
  loop step []

/-- Reads `p` with `separator` between, as long as a separator follows; stops also before a `p` when
    the test holds. -/
def separatedUnless (stop : List Token → Bool) (separator : String) (p : Parser Unit) :
    Parser Unit := do
  let step (_ : Unit) : Parser (Unit ⊕ Unit) := do
    if stop (← look) then return .inr ()
    p
    if ← punct? separator then return .inl () else return .inr ()
  loop step ()

/-- Reads `p` with `separator` between until the test holds, before a `p` or after one. -/
def separatedUntil (stop : List Token → Bool) (separator : String) (p : Parser Unit) :
    Parser Unit := do
  let step (_ : Unit) : Parser (Unit ⊕ Unit) := do
    if stop (← look) then return .inr ()
    p
    if stop (← look) then return .inr ()
    punct separator
    return .inl ()
  loop step ()

/-- Reads all tokens by `p`. What is left over, in a group or at the end, is an error. -/
def readAll {α : Type} (p : Parser α) (tokens : List Token) (close : Nat) :
    Except SyntaxError α :=
  match p ⟨tokens, close, none⟩ with
  | .ok (a, rest) =>
    match noteStray rest.stray rest.tokens with
    | some line => .error ⟨line, "unexpected token"⟩
    | none => .ok a
  | .error e => .error e

end Parser

end JobRoster.Syntax
