import JobRoster.Files.FilePath
import JobRoster.Files.IoError

/-!
# Source files

What a crate is read from: which files there are, and their texts.
-/

namespace JobRoster.Files

structure Sources where
  isFile : FilePath → Bool
  read : FilePath → Except IoError String
  /-- How deep modules in files of their own may nest. Where module files include one another in a
      circle there is no end to it. -/
  depth : Nat

namespace Sources

/-- The text of a path among some texts with their paths. The last one counts. -/
def find? (texts : List (FilePath × String)) (path : FilePath) : Option String :=
  (texts.reverse.find? fun entry => entry.1.same path).map (·.2)

/-- Sources held in memory. A chain of module files that is longer than twice their number meets one
    of them twice in the same role, and then never ends. -/
def ofTexts (texts : List (FilePath × String)) : Sources where
  isFile path := (find? texts path).isSome
  read path :=
    match find? texts path with
    | some text => .ok text
    | none => .error .noSuchSource
  depth := 2 * texts.length + 2

end Sources

end JobRoster.Files
