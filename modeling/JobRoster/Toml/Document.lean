import JobRoster.Text.Blank
import JobRoster.Toml.Number
import JobRoster.Toml.Text
import JobRoster.Toml.Value

/-!
# Configuration documents

Reads a whole configuration file: pairs of keys and values, one a line, in tables that headers
start.
-/

namespace JobRoster.Toml

open Scanner

/-- Values in brackets and braces nest less deeply than this, and keys have fewer parts. -/
def nestingLimit : Nat := 80

/-! ## Keys -/

def isBareKeyChar (c : Char) : Bool :=
  ('a' ≤ c && c ≤ 'z') || ('A' ≤ c && c ≤ 'Z') || ('0' ≤ c && c ≤ '9') || c = '-' || c = '_'

/-- One part of a key: a string, or characters that need no quotes. -/
def barePart : Scanner String := do
  match ← peek? with
  | some '"' | some '\'' => lineString
  | _ => return String.ofList (← takeSome isBareKeyChar)

/-- One part of a key, with the blanks around it. -/
def keyPart : Scanner String := do
  blanks
  let part ← barePart
  blanks
  return part

/-- A key: the parts before the last, and the last. -/
def key : Scanner (List String × String) := do
  let first ← keyPart
  let more ← repeatWhile (fun cs => cs.head? = some '.') do
    expect '.'
    keyPart
  let parts := first :: more
  if nestingLimit ≤ parts.length then fail
  return (parts.dropLast, parts.getLastD first)

/-! ## Values -/

def word (spelling : String) : Scanner Unit := fun cs =>
  (spelling.toList.isPrefixOf? cs).map ((), ·)

/-- Tries one scanner, and another from the same place if it fails. -/
def orElse {α : Type} (first second : Scanner α) : Scanner α := fun cs =>
  match first cs with
  | some result => some result
  | none => second cs

/-- A value without others inside it. -/
def simpleValue : Scanner Value := do
  match ← peek? with
  | some '"' | some '\'' => return .str (← string)
  | some 't' => word "true"; return .scalar
  | some 'f' => word "false"; return .scalar
  | _ =>
    orElse (do dateTime; return .dateTime) <| orElse (do time; return .dateTime) <|
      orElse (do digitsFloat; return .scalar) <| orElse (do specialFloat; return .scalar) <|
        do integer; return .scalar

/-- The items of an array and its closing bracket. There may be a comma after the last one. -/
def arrayItems (item : Scanner Value) : (steps : Nat) → Scanner (List Value)
  | 0 => fail
  | steps + 1 => do
    trivia
    if ← take? ']' then return []
    let first ← item
    trivia
    if ← take? ',' then return first :: (← arrayItems item steps)
    expect ']'
    return [first]

/-- A key and its value in an inline table. -/
def inlinePair (value : Scanner Value) (entries : Entries) : Scanner Entries := do
  let (path, last) ← key
  expect '='
  blanks
  let v ← value
  blanks
  match addPair path last v .inline entries with
  | some entries => return entries
  | none => fail

/-- The pairs of an inline table from the first one on, and its closing brace. -/
def inlinePairs (value : Scanner Value) : (steps : Nat) → Entries → Scanner Entries
  | 0, _ => fail
  | steps + 1, entries => do
    let entries ← inlinePair value entries
    if ← take? ',' then inlinePairs value steps entries
    else
      expect '\x7d'
      return entries

/-- A value, in which `depth` values may be one inside the other. -/
def valueWithin : (depth : Nat) → Scanner Value
  | 0 => simpleValue
  | depth + 1 => do
    match ← peek? with
    | some '[' =>
      expect '['
      return .array (← arrayItems (valueWithin depth) ((← rest).length + 1))
    | some '\x7b' =>
      expect '\x7b'
      blanks
      if ← take? '\x7d' then return .table .inline []
      return .table .inline (← inlinePairs (valueWithin depth) ((← rest).length + 1) [])
    | _ => simpleValue

def value : Scanner Value :=
  valueWithin (nestingLimit - 1)

/-! ## Lines -/

/-- The table that the pairs of a line go to. -/
structure Document where
  entries : Entries
  /-- The path of the last header. -/
  current : List String

/-- A pair on a line of its own. It goes to the table of the last header. -/
def pairLine (doc : Document) : Scanner Document := do
  let (path, last) ← key
  expect '='
  blanks
  let v ← value
  lineTrailing
  match changeAt false (addPair path last v) doc.current .headed doc.entries with
  | some entries => return { doc with entries }
  | none => fail

/-- A header: the path of a table in brackets, or in double brackets. -/
def headerLine (doc : Document) : Scanner Document := do
  expect '['
  let double ← take? '['
  let (path, last) ← key
  expect ']'
  if double then expect ']'
  lineTrailing
  let add := if double then addToTables else addTable
  match add path last .headed doc.entries with
  | some entries => return ⟨entries, path ++ [last]⟩
  | none => fail

/-- One line, the blanks after it included. -/
def line (doc : Document) : Scanner Document := do
  let doc ←
    match ← peek? with
    | some '#' => do comment; lineEnd; pure doc
    | some '[' => headerLine doc
    | some '\n' | some '\r' => do newline; pure doc
    | _ => pairLine doc
  blanks
  return doc

def lines : (steps : Nat) → Document → Scanner Document
  | 0, doc => return doc
  | steps + 1, doc => do
    if (← rest).isEmpty then return doc
    lines steps (← line doc)

/-- The entries of a configuration file, unless it is malformed. -/
def parse? (text : String) : Option Entries :=
  let cs := Text.dropByteOrderMark text.toList
  match (do blanks; lines cs.length ⟨[], []⟩ : Scanner Document) cs with
  | some (doc, []) => some doc.entries
  | _ => none

end JobRoster.Toml
