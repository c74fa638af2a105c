import JobRoster.Text.PrintableTables

/-!
# Quoted texts

Two ways to put a text between double quotes. A *literal* is what generated source holds: it reads
back as the same text. A *debug* quote is what a diagnostic shows; it differs in NUL alone, whose
short escape it uses everywhere.
-/

namespace JobRoster.Text

/-- Whether a character has a visible form, as a blank of ASCII has. -/
def isPrintable (c : Char) : Bool :=
  if c.toNat < 0x80 then 0x20 ≤ c.toNat && c.toNat ≠ 0x7f else !unprintableTable.has c

/-- Whether a character combines with the one before it. -/
def isCombining (c : Char) : Bool :=
  graphemeExtendTable.has c

/-- A code point in braces, in lower-case hexadecimal without leading zeros. -/
def codePointEscape (c : Char) : List Char :=
  ['\\', 'u', '\x7b'] ++ Nat.toDigits 16 c.toNat ++ ['\x7d']

/-- A character between double quotes. One that has no visible form of its own is escaped. -/
def escapeChar (c : Char) : List Char :=
  if c = '\x00' then ['\\', '0']
  else if c = '\t' then ['\\', 't']
  else if c = '\r' then ['\\', 'r']
  else if c = '\n' then ['\\', 'n']
  else if c = '\\' then ['\\', '\\']
  else if c = '"' then ['\\', '"']
  else if isPrintable c && !isCombining c then [c]
  else codePointEscape c

def isOctalDigit (c : Char) : Bool :=
  '0' ≤ c && c ≤ '7'

/-- The characters of a literal between its quotes. NUL is written in full before an octal digit,
    where the short escape could be misread. -/
def literalBody : List Char → List Char
  | [] => []
  | c :: cs =>
    let escaped :=
      if c = '\x00' ∧ (cs.head?.any isOctalDigit) then ['\\', 'x', '0', '0'] else escapeChar c
    escaped ++ literalBody cs

/-- The text as a string literal of source. -/
def literal (s : String) : String :=
  String.ofList (['"'] ++ literalBody s.toList ++ ['"'])

/-- The text as a diagnostic quotes it. -/
def debugQuote (s : String) : String :=
  String.ofList (['"'] ++ s.toList.flatMap escapeChar ++ ['"'])

@[simp] theorem literalBody_nil : literalBody [] = [] := rfl

end JobRoster.Text
