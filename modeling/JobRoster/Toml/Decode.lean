import JobRoster.Toml.Value

/-!
# Reading values as records

A record is read from a table, by its fields' names, or from an array, by their order. Tables and
arrays may hold more than the record asks for.
-/

namespace JobRoster.Toml

namespace Value

def text? : Value → Option String
  | str text => some text
  | _ => none

/-- The key under which a date counts as a table of one entry. -/
def dateTimeKey : String := "$__toml_private_datetime"

/-- The entries of a table. -/
def entries? : Value → Option Entries
  | table _ entries => some entries
  | dateTime => some [(dateTimeKey, .str "")]
  | _ => none

/-- The items of an array. -/
def items? : Value → Option (List Value)
  | array items => some items
  | tables items => some (items.map (.table .headed))
  | _ => none

/-- Whether a value is an empty array or table. -/
def isEmpty : Value → Bool
  | array items => items.isEmpty
  | tables items => items.isEmpty
  | table _ entries => entries.isEmpty
  | _ => false

/-- The fields of a record in a value: a table's entries, or an array's items under the names in
    their order. An array has to hold the first `required` of them. -/
def fields? (names : List String) (required : Nat) (value : Value) : Option Entries :=
  match value.entries?, value.items? with
  | some entries, _ => some entries
  | none, some items => if required ≤ items.length then some (names.zip items) else none
  | none, none => none

/-- One of some words: a text, or the only key of a table with an empty value. -/
def word? {α : Type} (ofWord? : String → Option α) : Value → Option α
  | str text => ofWord? text
  | table _ [(key, content)] => if content.isEmpty then ofWord? key else none
  | _ => none

end Value

namespace Entries

/-- A field that may be missing, but must be readable if it is there. -/
def optional? {α : Type} (entries : Entries) (key : String) (read? : Value → Option α) :
    Option (Option α) :=
  match value? entries key with
  | none => some none
  | some value => (read? value).map some

/-- A field that must be there. -/
def required? {α : Type} (entries : Entries) (key : String) (read? : Value → Option α) :
    Option α :=
  (value? entries key).bind read?

end Entries

end JobRoster.Toml
