import JobRoster.Files.Sources

/-!
# Trees of files

A file system as a value: files and directories by their place below the root, and the directory
that relative paths start from. Paths are followed name by name, so `..` after a name that is not
there fails, and a slash at the end asks for a directory. An operation that changes the tree returns
the changed tree, whether it succeeds or not.
-/

namespace JobRoster.Files

/-- The names from the root down to a file or directory. -/
abbrev Place := List String

/-- Of the ways to decide whether bytes are equal, the one of the core library. -/
instance decidableEqBytes : DecidableEq ByteArray :=
  ByteArray.instDecidableEq

inductive Node where
  | directory
  /-- A file with its bytes and the time of its last change. -/
  | file (bytes : ByteArray) (modified : Nat)
deriving DecidableEq

structure FileTree where
  /-- What is at each place but the root, which is a directory. -/
  nodes : List (Place × Node)
  /-- The directory that relative paths start from. -/
  working : Place
  /-- The time. It goes on by one with every write, and zero is before the first. -/
  clock : Nat

namespace FileTree

/-- A tree without files. -/
def empty : FileTree :=
  ⟨[(["work"], .directory)], ["work"], 1⟩

def node? (tree : FileTree) (place : Place) : Option Node :=
  if place.isEmpty then some .directory else (tree.nodes.find? (·.1 = place)).map (·.2)

/-- The tree with something at a place, or with nothing there. -/
def setNode (tree : FileTree) (place : Place) (node : Option Node) : FileTree :=
  let others := tree.nodes.filter (·.1 ≠ place)
  { tree with nodes := others ++ (node.map ((place, ·))).toList }

/-! ## Following paths -/

/-- The most bytes that a path and a name may have. -/
def maxPathBytes : Nat := 4095

def maxNameBytes : Nat := 255

/-- Where a path leads: the directory it is about to end in, and its last step. -/
inductive Target where
  /-- A directory reached by a step that is no name. -/
  | here (place : Place)
  /-- A name in a directory; whether a slash follows it. -/
  | named (parent : Place) (name : String) (slash : Bool)
deriving DecidableEq, Repr

/-- The directory that one step leads to from another one. -/
def step (tree : FileTree) (place : Place) (piece : String) : Except IoError Place :=
  if piece = "." then .ok place
  else if piece = ".." then .ok place.dropLast
  else if maxNameBytes < piece.utf8ByteSize then .error .nameTooLong
  else
    match tree.node? (place ++ [piece]) with
    | some .directory => .ok (place ++ [piece])
    | some (.file _ _) => .error .notADirectory
    | none => .error .notFound

/-- Follows all steps but the last. -/
def follow (tree : FileTree) (slash : Bool) : (place : Place) → List String → Except IoError Target
  | place, [] => .ok (.here place)
  | place, [piece] =>
    if piece = "." then .ok (.here place)
    else if piece = ".." then .ok (.here place.dropLast)
    else if maxNameBytes < piece.utf8ByteSize then .error .nameTooLong
    else .ok (.named place piece slash)
  | place, piece :: pieces => do follow tree slash (← tree.step place piece) pieces

/-- Where a path starts from, and its steps. -/
def route (tree : FileTree) (path : FilePath) : Except IoError (Place × List String) :=
  let cs := path.text.toList
  if cs.contains '\x00' then .error .nulInPath
  else if maxPathBytes < path.text.utf8ByteSize then .error .nameTooLong
  else if cs.isEmpty then .error .notFound
  else
    let start := if path.isAbsolute then [] else tree.working
    .ok (start, ((splitSlashes cs).filter (· ≠ [])).map String.ofList)

/-- Where a path leads. -/
def target (tree : FileTree) (path : FilePath) : Except IoError Target := do
  let (start, pieces) ← tree.route path
  tree.follow (path.text.toList.getLast? = some '/') start pieces

/-- What is at the end of a path. -/
def find (tree : FileTree) (path : FilePath) : Except IoError (Place × Node) := do
  match ← tree.target path with
  | .here place => return (place, .directory)
  | .named parent name slash =>
    match tree.node? (parent ++ [name]) with
    | none => throw .notFound
    | some .directory => return (parent ++ [name], .directory)
    | some node => if slash then throw .notADirectory else return (parent ++ [name], node)

/-! ## Reading -/

def isFile (tree : FileTree) (path : FilePath) : Bool :=
  match tree.find path with
  | .ok (_, .file _ _) => true
  | _ => false

def isDirectory (tree : FileTree) (path : FilePath) : Bool :=
  match tree.find path with
  | .ok (_, .directory) => true
  | _ => false

def read (tree : FileTree) (path : FilePath) : Except IoError ByteArray := do
  match ← tree.find path with
  | (_, .file bytes _) => return bytes
  | (_, .directory) => throw .isADirectory

/-- The text of a file. -/
def readText (tree : FileTree) (path : FilePath) : Except IoError String := do
  match String.fromUTF8? (← tree.read path) with
  | some text => return text
  | none => throw .notUtf8

/-- How deep module files may nest whatever their paths. Where they go on without end, their paths
    mostly do, too, until they are too long. -/
def sources (tree : FileTree) : Sources where
  isFile := tree.isFile
  read := tree.readText
  depth := maxPathBytes + 2 * tree.nodes.length + 2

/-! ## Changes -/

/-- The tree after an operation, and whether that succeeded. -/
abbrev Changed := FileTree × Except IoError Unit

/-- Writes a file, which is made if it is not there. Its directory must be. -/
def write (tree : FileTree) (path : FilePath) (bytes : ByteArray) : Changed :=
  match tree.target path with
  | .error error => (tree, .error error)
  | .ok (.here _) => (tree, .error .isADirectory)
  | .ok (.named parent name slash) =>
    if slash || tree.node? (parent ++ [name]) = some .directory then (tree, .error .isADirectory)
    else
      let tree := tree.setNode (parent ++ [name]) (some (.file bytes tree.clock))
      ({ tree with clock := tree.clock + 1 }, .ok ())

/-- Removes a file. -/
def remove (tree : FileTree) (path : FilePath) : Changed :=
  match tree.target path with
  | .error error => (tree, .error error)
  | .ok (.here _) => (tree, .error .isADirectory)
  | .ok (.named parent name slash) =>
    match tree.node? (parent ++ [name]) with
    | none => (tree, .error .notFound)
    | some .directory => (tree, .error .isADirectory)
    | some (.file _ _) =>
      if slash then (tree, .error .notADirectory)
      else (tree.setNode (parent ++ [name]) none, .ok ())

/-- Makes one directory. -/
def makeDirectory (tree : FileTree) (path : FilePath) : Changed :=
  match tree.target path with
  | .error error => (tree, .error error)
  | .ok (.here _) => (tree, .error .alreadyExists)
  | .ok (.named parent name _) =>
    match tree.node? (parent ++ [name]) with
    | some _ => (tree, .error .alreadyExists)
    | none => (tree.setNode (parent ++ [name]) (some .directory), .ok ())

/-- Makes one directory, and is content with one that is there. -/
def ensureDirectory (tree : FileTree) (path : FilePath) : Changed :=
  match tree.makeDirectory path with
  | (tree, .ok ()) => (tree, .ok ())
  | (tree, .error error) => if tree.isDirectory path then (tree, .ok ()) else (tree, .error error)

/-- Makes a directory and those it is in, which are no more than `steps`. -/
def makeDirectoriesWithin : (steps : Nat) → FileTree → FilePath → Changed
  | 0, tree, _ => (tree, .error .notFound)
  | steps + 1, tree, path =>
    if path.text.isEmpty then (tree, .ok ())
    else
      match tree.ensureDirectory path with
      | (tree, .error .notFound) =>
        match makeDirectoriesWithin steps tree path.parent with
        | (tree, .ok ()) => tree.ensureDirectory path
        | failed => failed
      | done => done

/-- Makes a directory and those it is in. -/
def makeDirectories (tree : FileTree) (path : FilePath) : Changed :=
  makeDirectoriesWithin (path.text.length + 1) tree path

/-- Sets the time of change of a file to zero, which is before any write. -/
def stamp (tree : FileTree) (path : FilePath) : FileTree :=
  match tree.find path with
  | .ok (place, .file bytes _) => tree.setNode place (some (.file bytes 0))
  | _ => tree

/-- Whether a file was not written since it was stamped. -/
def isStamped (tree : FileTree) (path : FilePath) : Bool :=
  match tree.find path with
  | .ok (_, .file _ modified) => modified = 0
  | _ => false

/-! ## Listing -/

/-- What follows a place in one below it. -/
def below? : Place → Place → Option Place
  | [], place => some place
  | name :: base, other :: place => if name = other then below? base place else none
  | _ :: _, [] => none

/-- The files below a directory with their bytes, by their paths from it. -/
def filesBelow (tree : FileTree) (path : FilePath) : List (String × ByteArray) :=
  match tree.find path with
  | .ok (base, .directory) =>
    tree.nodes.filterMap fun
      | (place, .file bytes _) =>
        (below? base place).map fun names => ("/".intercalate names, bytes)
      | _ => none
  | _ => []

end FileTree

end JobRoster.Files
