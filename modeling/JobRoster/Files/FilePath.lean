/-!
# File paths

A path keeps the text it was given, and that text is what messages show. Two texts name the same
path when they have the same components: empty pieces and single dots between slashes do not count,
a leading dot does, and two dots are never resolved.
-/

namespace JobRoster.Files

structure FilePath where
  text : String
deriving DecidableEq, Repr

/-- One step of a path. -/
inductive Component where
  | root
  | current
  | up
  | name (name : String)
deriving DecidableEq, Repr

namespace Component

/-- The place of a component among the kinds of component. -/
def rank : Component → Nat
  | root => 0
  | current => 1
  | up => 2
  | name _ => 3

/-- Components are ordered by kind, names among themselves by their characters. -/
def compare : Component → Component → Ordering
  | name a, name b => Ord.compare a b
  | a, b => Ord.compare a.rank b.rank

end Component

/-! ## Pieces between slashes -/

/-- The pieces between slashes, at least one. -/
def splitSlashes : List Char → List (List Char)
  | [] => [[]]
  | '/' :: cs => [] :: splitSlashes cs
  | c :: cs =>
    match splitSlashes cs with
    | [] => [[c]]
    | piece :: pieces => (c :: piece) :: pieces

/-- The pieces with slashes between them. -/
def joinSlashes : List (List Char) → List Char
  | [] => []
  | [piece] => piece
  | piece :: pieces => piece ++ '/' :: joinSlashes pieces

/-- A piece that is no step of its own. -/
def isEmptyPiece (piece : List Char) : Bool :=
  piece = [] || piece = ['.']

theorem splitSlashes_ne_nil (cs : List Char) : splitSlashes cs ≠ [] := by
  unfold splitSlashes
  split
  · simp
  · simp
  · split <;> simp

/-- Splitting at slashes loses nothing. -/
theorem joinSlashes_splitSlashes (cs : List Char) : joinSlashes (splitSlashes cs) = cs := by
  fun_induction splitSlashes cs with
  | case1 => rfl
  | case2 cs ih =>
    cases h : splitSlashes cs with
    | nil => exact absurd h (splitSlashes_ne_nil cs)
    | cons piece pieces => rw [h] at ih; rw [← ih]; rfl
  | case3 c cs _ h => exact absurd h (splitSlashes_ne_nil cs)
  | case4 c cs _ piece pieces h ih =>
    rw [h] at ih
    cases pieces with
    | nil => rw [← ih]; rfl
    | cons next pieces => rw [← ih]; rfl

/-! ## Components -/

namespace FilePath

def empty : FilePath := ⟨""⟩

/-- Whether the path starts from the root of the file system. -/
def isAbsolute (path : FilePath) : Bool :=
  path.text.toList.head? = some '/'

/-- The first character of a text where it is a component of its own, a slash or a dot, and the rest
    of the text. -/
def splitLead : List Char → List Char × List Char
  | '/' :: cs => (['/'], cs)
  | ['.'] => (['.'], [])
  | '.' :: '/' :: cs => (['.'], '/' :: cs)
  | cs => ([], cs)

def leadComponents : List Char → List Component
  | ['/'] => [.root]
  | ['.'] => [.current]
  | _ => []

def pieceComponent (piece : List Char) : Component :=
  if piece = ['.', '.'] then .up else .name (String.ofList piece)

/-- The steps of the path, in order. -/
def components (path : FilePath) : List Component :=
  let (lead, rest) := splitLead path.text.toList
  leadComponents lead ++
    ((splitSlashes rest).filter fun piece => !isEmptyPiece piece).map pieceComponent

/-- Whether two texts name the same path. -/
def same (a b : FilePath) : Bool :=
  a.components = b.components

/-- Lexicographic order of lists. -/
def compareLists : List Component → List Component → Ordering
  | [], [] => .eq
  | [], _ :: _ => .lt
  | _ :: _, [] => .gt
  | a :: as, b :: bs => (a.compare b).then (compareLists as bs)

/-- Paths are ordered by their components, a path before what it contains. -/
def compare (a b : FilePath) : Ordering :=
  compareLists a.components b.components

/-! ## Building paths -/

/-- The path `rest` as seen from `base`. An absolute one stays as it is. -/
def join (base : FilePath) (rest : String) : FilePath :=
  if (FilePath.mk rest).isAbsolute then ⟨rest⟩
  else if base.text.isEmpty || base.text.toList.getLast? = some '/' then ⟨base.text ++ rest⟩
  else ⟨base.text ++ "/" ++ rest⟩

/-- The pieces without those at the end that are no step. -/
def dropEmptyPieces (pieces : List (List Char)) : List (List Char) :=
  (pieces.reverse.dropWhile isEmptyPiece).reverse

/-- The path without its last component. The empty path if there is no component to take away, or
    none but the root. -/
def parent (path : FilePath) : FilePath :=
  let (lead, rest) := splitLead path.text.toList
  match dropEmptyPieces (splitSlashes rest) with
  | [] => empty
  | pieces => ⟨String.ofList (lead ++ joinSlashes (dropEmptyPieces pieces.dropLast))⟩

/-- The characters of a file name before its last dot. A dot at the start begins no extension. -/
def stemChars (name : List Char) : List Char :=
  match (name.reverse.dropWhile (· ≠ '.')).drop 1 with
  | [] => name
  | stem => stem.reverse

/-- The path without the extension of the name it ends in. -/
def withoutExtension (path : FilePath) : FilePath :=
  let pieces := splitSlashes path.text.toList
  match pieces.getLast? with
  | some name => ⟨String.ofList (joinSlashes (pieces.dropLast ++ [stemChars name]))⟩
  | none => path

end FilePath

end JobRoster.Files
