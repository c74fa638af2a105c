import JobRoster.Syntax.Tree
import JobRoster.Text.Blank
import JobRoster.Text.Segments

/-!
# Item paths

A path to an item as it is written, before anything is known of what it denotes: its segments, and
whether a separator stands before them.
-/

namespace JobRoster.Crate

open Text

structure ItemPath where
  leadingColon : Bool
  segments : List String
deriving DecidableEq, Repr

namespace ItemPath

/-- The path that a text writes. Blanks around it and around its segments do not count, and neither
    do segments that are blank. -/
def parse (text : String) : ItemPath :=
  let trimmed := trim text
  let segments (rest : String) := ((splitSegments rest).map trim).filter (!·.isEmpty)
  match dropLead? "::" trimmed with
  | some rest => ⟨true, segments rest⟩
  | none => ⟨false, segments trimmed⟩

/-- The path that a syntax tree holds. Arguments of segments and raw marks are dropped. -/
def ofSyntax (path : Syntax.Path) : ItemPath :=
  ⟨path.leadingColon, path.segments.map (·.ident.name)⟩

def text (path : ItemPath) : String :=
  (if path.leadingColon then "::" else "") ++ joinSegments path.segments

def last? (path : ItemPath) : Option String :=
  path.segments.getLast?

/-- The path with one more segment. -/
def push (path : ItemPath) (segment : String) : ItemPath :=
  ⟨path.leadingColon, path.segments ++ [segment]⟩

/-- The path of one segment. -/
def ofName (name : String) : ItemPath :=
  ⟨false, [name]⟩

@[simp] theorem segments_push (path : ItemPath) (segment : String) :
    (path.push segment).segments = path.segments ++ [segment] := rfl

@[simp] theorem last?_push (path : ItemPath) (segment : String) :
    (path.push segment).last? = some segment := by
  simp [last?, push]

end ItemPath

end JobRoster.Crate
