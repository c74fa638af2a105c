/-!
# Blank characters

Two notions of blank: the Unicode property `White_Space`, by which names and cron expressions are
trimmed, and the slightly larger set that separates the tokens of a source file. Beside them stands
the mark that may come before the first character of a file.
-/

namespace JobRoster.Text

/-- Unicode `White_Space`. -/
def isBlank (c : Char) : Bool :=
  let n := c.toNat
  (9 ≤ n && n ≤ 13) || n = 0x20 || n = 0x85 || n = 0xa0 || n = 0x1680 ||
    (0x2000 ≤ n && n ≤ 0x200a) || n = 0x2028 || n = 0x2029 || n = 0x202f || n = 0x205f || n = 0x3000

/-- Blank between tokens: `White_Space` and the two directional marks. -/
def isSourceBlank (c : Char) : Bool :=
  isBlank c || c.toNat = 0x200e || c.toNat = 0x200f

/-- The characters without the blank ones at either end. -/
def trimChars (cs : List Char) : List Char :=
  ((cs.dropWhile isBlank).reverse.dropWhile isBlank).reverse

/-- The text without blanks at either end. -/
def trim (s : String) : String :=
  String.ofList (trimChars s.toList)

/-- Whether the text holds nothing but blanks. -/
def isAllBlank (s : String) : Bool :=
  s.toList.all isBlank

/-- A mark that a text may start with, and that is no part of it. -/
def byteOrderMark : Char := '\ufeff'

def dropByteOrderMark (cs : List Char) : List Char :=
  if cs.head? = some byteOrderMark then cs.drop 1 else cs

@[simp] theorem trimChars_nil : trimChars [] = [] := rfl

end JobRoster.Text
