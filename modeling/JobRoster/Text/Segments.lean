/-!
# Texts joined by `::`

A path is written as segments with `::` between them. Splitting reads from the left, so of three
colons the first two separate; `lastSegment` looks from the right, so there the last two do.
-/

namespace JobRoster.Text

/-- The pieces between the separators, at least one. -/
def splitSegmentChars : List Char → List (List Char)
  | [] => [[]]
  | ':' :: ':' :: cs => [] :: splitSegmentChars cs
  | c :: cs =>
    match splitSegmentChars cs with
    | [] => [[c]]
    | piece :: pieces => (c :: piece) :: pieces

/-- The pieces of a text between its separators. -/
def splitSegments (s : String) : List String :=
  (splitSegmentChars s.toList).map String.ofList

/-- The segments with `::` between them. -/
def joinSegments : List String → String
  | [] => ""
  | [segment] => segment
  | segment :: segments => segment ++ "::" ++ joinSegments segments

/-- The characters of a reversed text before its first separator. -/
def takeUntilSeparator : List Char → List Char
  | [] => []
  | ':' :: ':' :: _ => []
  | c :: cs => c :: takeUntilSeparator cs

/-- What follows the last separator of a text; the text itself if there is none. -/
def lastSegment (s : String) : String :=
  String.ofList (takeUntilSeparator s.toList.reverse).reverse

/-- What follows `lead` in a text that starts with it. -/
def dropLead? (lead s : String) : Option String :=
  (lead.toList.isPrefixOf? s.toList).map String.ofList

@[simp] theorem joinSegments_nil : joinSegments [] = "" := rfl

@[simp] theorem joinSegments_singleton (segment : String) : joinSegments [segment] = segment := rfl

theorem joinSegments_cons_cons (a b : String) (segments : List String) :
    joinSegments (a :: b :: segments) = a ++ "::" ++ joinSegments (b :: segments) := rfl

theorem splitSegmentChars_ne_nil (cs : List Char) : splitSegmentChars cs ≠ [] := by
  unfold splitSegmentChars
  split
  · simp
  · simp
  · split <;> simp

end JobRoster.Text
