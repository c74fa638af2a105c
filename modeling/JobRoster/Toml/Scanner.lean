/-!
# Scanning configuration text

Scanners over the characters of a configuration file: each takes a piece off the front and hands
back what is left, or fails. Here are the blanks, comments and line ends between the other pieces.
-/

namespace JobRoster.Toml

/-- Takes a value off the front of some characters. -/
abbrev Scanner := StateT (List Char) Option

namespace Scanner

variable {α : Type}

def fail : Scanner α := fun _ => none

/-- The characters that are left. -/
def rest : Scanner (List Char) := get

def continueAt (cs : List Char) : Scanner Unit := set cs

/-- The next character, which stays. -/
def peek? : Scanner (Option Char) := do
  return (← rest).head?

/-- Takes one character, which must be `c`. -/
def expect (c : Char) : Scanner Unit := fun
  | [] => none
  | d :: cs => if d = c then some ((), cs) else none

/-- Takes one character if it is `c`. -/
def take? (c : Char) : Scanner Bool := fun
  | [] => some (false, [])
  | d :: cs => if d = c then some (true, cs) else some (false, d :: cs)

/-- Takes all characters up to the first that does not satisfy `p`. -/
def takeAll (p : Char → Bool) : Scanner (List Char) := fun cs =>
  some (cs.takeWhile p, cs.dropWhile p)

/-- Takes at least one character that satisfies `p`, and all that follow. -/
def takeSome (p : Char → Bool) : Scanner (List Char) := do
  match ← takeAll p with
  | [] => fail
  | cs => return cs

/-- Takes items while `more` holds of what is left, at most `steps` of them. -/
def repeatWithin (more : List Char → Bool) (item : Scanner α) : (steps : Nat) → Scanner (List α)
  | 0 => return []
  | steps + 1 => do
    if more (← rest) then
      let first ← item
      return first :: (← repeatWithin more item steps)
    else return []

/-- Takes items while `more` holds of what is left. Every item takes a character, so there are no
    more of them than characters. -/
def repeatWhile (more : List Char → Bool) (item : Scanner α) : Scanner (List α) := do
  repeatWithin more item (← rest).length

/-! ## Between pieces -/

/-- Blank within a line. -/
def isBlank (c : Char) : Bool :=
  c = ' ' || c = '\t'

/-- Allowed in comments and, quotes and backslashes aside, in strings: all but control
    characters. -/
def isPlain (c : Char) : Bool :=
  c = '\t' || 0x20 ≤ c.toNat && c.toNat ≠ 0x7f

def blanks : Scanner Unit := modify (·.dropWhile isBlank)

/-- What follows the line break at the start of a text. -/
def afterNewline? : List Char → Option (List Char)
  | '\n' :: cs => some cs
  | '\r' :: '\n' :: cs => some cs
  | _ => none

def newline : Scanner Unit := fun cs => (afterNewline? cs).map ((), ·)

/-- A comment up to the end of its line. -/
def comment : Scanner Unit := do
  expect '#'
  let _ ← takeAll isPlain

/-- A line break or the end of the text. -/
def lineEnd : Scanner Unit := do
  unless (← rest).isEmpty do newline

/-- What may follow a piece that ends its line. -/
def lineTrailing : Scanner Unit := do
  blanks
  if (← peek?) = some '#' then comment
  lineEnd

/-- Whether a comment or a line break comes next. -/
def startsTrivia (cs : List Char) : Bool :=
  match cs with
  | '#' :: _ | '\n' :: _ | '\r' :: _ => true
  | _ => false

/-- Blanks, line breaks, and comments that end in a line break. -/
def trivia : Scanner Unit := do
  blanks
  let _ ← repeatWhile startsTrivia do
    if (← peek?) = some '#' then comment
    newline
    blanks

end Scanner

end JobRoster.Toml
