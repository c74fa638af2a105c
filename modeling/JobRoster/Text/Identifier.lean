import JobRoster.Text.IdentifierTables

/-!
# Identifiers

Which characters start and continue an identifier, and the longest identifier at the start of a
text.
-/

namespace JobRoster.Text

def isAsciiLetter (c : Char) : Bool :=
  ('a' ≤ c && c ≤ 'z') || ('A' ≤ c && c ≤ 'Z')

def isAsciiDigit (c : Char) : Bool :=
  '0' ≤ c && c ≤ '9'

/-- `XID_Start` or an underscore. -/
def isIdentStart (c : Char) : Bool :=
  if c.toNat < 0x80 then isAsciiLetter c || c = '_' else xidStartTable.has c

/-- `XID_Continue`. -/
def isIdentContinue (c : Char) : Bool :=
  if c.toNat < 0x80 then isAsciiLetter c || isAsciiDigit c || c = '_'
  else xidStartTable.has c || xidContinueTable.has c

/-- Whether the characters spell one identifier, raw marks and keywords aside. -/
def isIdent : List Char → Bool
  | [] => false
  | c :: cs => isIdentStart c && cs.all isIdentContinue

/-- A text that is one identifier, raw marks and keywords aside. -/
def IsIdentifier (text : String) : Prop :=
  isIdent text.toList = true

instance : DecidablePred IsIdentifier :=
  fun text => inferInstanceAs (Decidable (isIdent text.toList = true))

/-- The identifier at the start of a text, and what follows it. -/
def takeIdent? : List Char → Option (List Char × List Char)
  | [] => none
  | c :: cs =>
    if isIdentStart c then some (c :: cs.takeWhile isIdentContinue, cs.dropWhile isIdentContinue)
    else none

/-- What follows the identifier at the start of a text, if there is one; else the text. -/
def skipIdent (cs : List Char) : List Char :=
  match takeIdent? cs with
  | some (_, rest) => rest
  | none => cs

/-- Nothing is lost: the identifier and the rest are the text. -/
theorem takeIdent?_append {cs ident rest : List Char} (h : takeIdent? cs = some (ident, rest)) :
    ident ++ rest = cs := by
  cases cs with
  | nil => simp [takeIdent?] at h
  | cons c cs =>
    simp only [takeIdent?] at h
    split at h
    · obtain ⟨rfl, rfl⟩ := by simpa using h
      simp
    · simp at h

/-- What is taken is an identifier. -/
theorem isIdentifier_of_takeIdent? {cs ident rest : List Char}
    (h : takeIdent? cs = some (ident, rest)) : IsIdentifier (String.ofList ident) := by
  rw [IsIdentifier, String.toList_ofList]
  cases cs with
  | nil => simp [takeIdent?] at h
  | cons c cs =>
    simp only [takeIdent?] at h
    split at h
    next hstart =>
      obtain ⟨rfl, rfl⟩ := by simpa using h
      have hrest : (cs.takeWhile isIdentContinue).all isIdentContinue = true := List.all_takeWhile
      simp [isIdent, hstart, hrest]
    · simp at h

end JobRoster.Text
