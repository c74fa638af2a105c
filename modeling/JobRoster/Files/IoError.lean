/-!
# Failures of file operations

The ways in which reading or changing files fails, with the kind and the message of each.
-/

namespace JobRoster.Files

inductive IoError where
  | notFound
  | alreadyExists
  | notADirectory
  | isADirectory
  | nameTooLong
  /-- A path that holds a NUL character. -/
  | nulInPath
  /-- A text file whose bytes are no UTF-8. -/
  | notUtf8
  /-- Sources held in memory, none of which has the path. -/
  | noSuchSource
deriving DecidableEq, Repr

namespace IoError

/-- The name of the class of failures. -/
def kind : IoError → String
  | notFound => "NotFound"
  | alreadyExists => "AlreadyExists"
  | notADirectory => "NotADirectory"
  | isADirectory => "IsADirectory"
  | nameTooLong => "InvalidFilename"
  | nulInPath => "InvalidInput"
  | notUtf8 => "InvalidData"
  | noSuchSource => "NotFound"

/-- A message of the operating system, with its number. -/
def systemMessage (message : String) (number : Nat) : String :=
  message ++ " (os error " ++ toString number ++ ")"

def message : IoError → String
  | notFound => systemMessage "No such file or directory" 2
  | alreadyExists => systemMessage "File exists" 17
  | notADirectory => systemMessage "Not a directory" 20
  | isADirectory => systemMessage "Is a directory" 21
  | nameTooLong => systemMessage "File name too long" 36
  | nulInPath => "file name contained an unexpected NUL byte"
  | notUtf8 => "stream did not contain valid UTF-8"
  | noSuchSource => "no such in-memory source"

end IoError

end JobRoster.Files
