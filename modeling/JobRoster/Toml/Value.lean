/-!
# Configuration values

Values and tables of a configuration file. A table remembers how it came to be, because that decides
what may still be added to it: one written in braces is closed, one with a header of its own cannot
have another, and one that dotted keys made can grow by dotted keys alone.
-/

namespace JobRoster.Toml

inductive TableForm where
  /-- Written in braces. -/
  | inline
  /-- Written under a header. -/
  | headed
  /-- On the way of another table's header. -/
  | implied
  /-- On the way of a dotted key. -/
  | dotted
deriving DecidableEq, Repr

inductive Value where
  | str (text : String)
  /-- A number or a truth value. -/
  | scalar
  | dateTime
  | array (items : List Value)
  | table (form : TableForm) (entries : List (String × Value))
  /-- Tables under headers of one name, each of which may grow while it is the last. -/
  | tables (items : List (List (String × Value)))
deriving Repr

/-- Keys with their values, in order. -/
abbrev Entries := List (String × Value)

namespace Entries

def value? (entries : Entries) (key : String) : Option Value :=
  (List.find? (·.1 = key) entries).map (·.2)

/-- The entries with a value for a key that has none yet. -/
def insert? (entries : Entries) (key : String) (value : Value) : Option Entries :=
  match value? entries key with
  | some _ => none
  | none => some (entries ++ [(key, value)])

/-- The entries with another value for a key. -/
def replace (entries : Entries) (key : String) (value : Value) : Entries :=
  entries.map fun entry => if entry.1 = key then (key, value) else entry

/-- The entries with a value for a key, whether it has one or not. -/
def put (entries : Entries) (key : String) (value : Value) : Entries :=
  match value? entries key with
  | some _ => replace entries key value
  | none => entries ++ [(key, value)]

end Entries

/-! ## Growing tables -/

/-- Changes a table that was made in a way. -/
abbrev Change := TableForm → Entries → Option Entries

/-- Changes the last of some tables. -/
def changeLast (change : Entries → Option Entries) : List Entries → Option (List Entries)
  | [] => none
  | [last] => do return [← change last]
  | first :: rest => do return first :: (← changeLast change rest)

/-- Changes the table at the end of a path, making the tables on the way that are missing. With
    `dotted`, the path is that of a dotted key: it makes tables of that form, and cannot lead
    through a table that has a header. -/
def changeAt (dotted : Bool) (change : Change) : List String → Change
  | [], form, entries => change form entries
  | key :: path, _, entries =>
    match Entries.value? entries key with
    | none => do
      let form := if dotted then .dotted else .implied
      let inner ← changeAt dotted change path form []
      return entries ++ [(key, .table form inner)]
    | some (.table form inner) =>
      if form = .inline || dotted && form = .headed then none
      else do
        let inner ← changeAt dotted change path form inner
        return Entries.replace entries key (.table form inner)
    | some (.tables items) => do
      let items ← changeLast (changeAt dotted change path .headed) items
      return Entries.replace entries key (.tables items)
    | some _ => none

/-- Adds a value under a key of one or more parts. Parts before the last lead to a table that dotted
    keys made. -/
def addPair (path : List String) (key : String) (value : Value) : Change :=
  changeAt true (fun form entries =>
    if path.isEmpty || form = .dotted then Entries.insert? entries key value else none) path

/-- Starts the table of a header. The table may be there already if it was only implied. -/
def addTable (path : List String) (key : String) : Change :=
  changeAt false (fun _ entries =>
    match Entries.value? entries key with
    | none => some (entries ++ [(key, .table .headed [])])
    | some (.table .implied inner) => some (Entries.replace entries key (.table .headed inner))
    | some _ => none) path

/-- Starts one more table of a header in double brackets. -/
def addToTables (path : List String) (key : String) : Change :=
  changeAt false (fun _ entries =>
    match Entries.value? entries key with
    | none => some (entries ++ [(key, .tables [[]])])
    | some (.tables items) => some (Entries.replace entries key (.tables (items ++ [[]])))
    | some _ => none) path

end JobRoster.Toml
