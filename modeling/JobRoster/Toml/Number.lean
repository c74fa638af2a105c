import JobRoster.Toml.Scanner

/-!
# Numbers and dates in configuration text

Integers of 64 bits, floats, dates and times. No setting is a number, so all that matters of one is
that it is well formed and in range, and where it ends.
-/

namespace JobRoster.Toml

open Scanner

def isDigit (c : Char) : Bool :=
  '0' ≤ c && c ≤ '9'

/-- The number that decimal digits spell; other characters are passed over. -/
def digitsValue (cs : List Char) : Nat :=
  (cs.filter isDigit).foldl (fun value c => 10 * value + (c.toNat - '0'.toNat)) 0

/-- Digits of some kind, with single underscores between them. -/
def underscored (isDigit : Char → Bool) : Scanner (List Char) := do
  let first ← takeSome isDigit
  let groups ← repeatWhile (fun cs => cs.head? = some '_') do
    expect '_'
    takeSome isDigit
  return first ++ groups.flatten

/-- A sign, if there is one; whether it is a minus. -/
def sign : Scanner Bool := do
  if ← take? '-' then return true
  let _ ← take? '+'
  return false

/-! ## Integers -/

/-- A decimal number without sign. Only zero itself starts with a zero. -/
def decimal : Scanner (List Char) := do
  if ← take? '0' then return ['0']
  underscored isDigit

def radixDigit? (radix : Nat) (c : Char) : Option Nat :=
  let value :=
    if isDigit c then c.toNat - '0'.toNat
    else if 'a' ≤ c && c ≤ 'f' then c.toNat - 'a'.toNat + 10
    else if 'A' ≤ c && c ≤ 'F' then c.toNat - 'A'.toNat + 10
    else radix
  if value < radix then some value else none

/-- A number in another radix, below two to the sixty-third. -/
def radixInteger (radix : Nat) : Scanner Unit := do
  let digits ← underscored fun c => (radixDigit? radix c).isSome
  let value := digits.foldl (fun value c => radix * value + (radixDigit? radix c).getD 0) 0
  unless value < Nat.pow 2 63 do fail

def decimalInteger : Scanner Unit := do
  let negative ← sign
  let value := digitsValue (← decimal)
  unless value < Nat.pow 2 63 || negative && value = Nat.pow 2 63 do fail

def integer : Scanner Unit := fun
  | '0' :: 'x' :: cs => radixInteger 16 cs
  | '0' :: 'o' :: cs => radixInteger 8 cs
  | '0' :: 'b' :: cs => radixInteger 2 cs
  | cs => decimalInteger cs

/-! ## Floats -/

/-- Whether `mantissa` times ten to the `exponent` rounds to a float that is not finite: whether it
    is at least half way from the largest float to two to the 1024th. -/
def overflows (mantissa : Nat) (exponent : Int) : Bool :=
  let halfWay := (Nat.pow 2 54 - 1) * Nat.pow 2 970
  let digits : Int := (Nat.toDigits 10 mantissa).length
  if mantissa = 0 || digits + exponent < 300 then false
  else if 0 ≤ exponent then
    digits + exponent > 320 || halfWay ≤ mantissa * Nat.pow 10 exponent.toNat
  else halfWay * Nat.pow 10 (-exponent).toNat ≤ mantissa

/-- The exponent of a float, if it has one. -/
def exponent? : Scanner (Option Int) := do
  match ← peek? with
  | some 'e' | some 'E' =>
    let _ ← modify (·.drop 1)
    let negative ← sign
    let value : Int := digitsValue (← underscored isDigit)
    return some (if negative then -value else value)
  | _ => return none

/-- The digits after the point of a float, if it has one. -/
def fraction? : Scanner (Option (List Char)) := do
  if ← take? '.' then return some (← underscored isDigit)
  return none

/-- A float in digits. A positive one must be finite. -/
def digitsFloat : Scanner Unit := do
  let negative ← sign
  let whole ← decimal
  let fraction ← fraction?
  let exponent ← exponent?
  if fraction.isNone && exponent.isNone then fail
  let fraction := fraction.getD []
  if !negative && overflows (digitsValue (whole ++ fraction)) (exponent.getD 0 - fraction.length)
  then fail

/-- Infinity, or no number. -/
def specialFloat : Scanner Unit := do
  let _ ← sign
  match ← rest with
  | 'i' :: 'n' :: 'f' :: cs => continueAt cs
  | 'n' :: 'a' :: 'n' :: cs => continueAt cs
  | _ => fail

/-! ## Dates and times -/

/-- Exactly `count` digits, of a value within bounds. -/
def fixedDigits (count low high : Nat) : Scanner Nat := fun cs =>
  let digits := cs.take count
  let value := digitsValue digits
  if digits.length = count && digits.all isDigit && low ≤ value && value ≤ high then
    some (value, cs.drop count)
  else none

def isLeapYear (year : Nat) : Bool :=
  year % 4 = 0 && (year % 100 ≠ 0 || year % 400 = 0)

def daysIn (year month : Nat) : Nat :=
  if month = 2 then if isLeapYear year then 29 else 28
  else if month = 4 || month = 6 || month = 9 || month = 11 then 30
  else 31

def date : Scanner Unit := do
  let year ← fixedDigits 4 0 9999
  expect '-'
  let month ← fixedDigits 2 1 12
  expect '-'
  let _ ← fixedDigits 2 1 (daysIn year month)

/-- A time of day. There may be a leap second. -/
def time : Scanner Unit := do
  let _ ← fixedDigits 2 0 23
  expect ':'
  let _ ← fixedDigits 2 0 59
  expect ':'
  let _ ← fixedDigits 2 0 60
  if ← take? '.' then
    let _ ← takeSome isDigit

/-- The distance from universal time, if it is given. -/
def offset : Scanner Unit := do
  match ← peek? with
  | some 'Z' | some 'z' => modify (·.drop 1)
  | some '+' | some '-' =>
    let _ ← modify (·.drop 1)
    let _ ← fixedDigits 2 0 23
    expect ':'
    let _ ← fixedDigits 2 0 59
  | _ => return ()

/-- Whether a time of day follows the mark that joins it to a date. -/
def startsJoinedTime : List Char → Bool
  | mark :: a :: b :: ':' :: _ =>
    (mark = 'T' || mark = 't' || mark = ' ') && isDigit a && isDigit b
  | _ => false

/-- A date with or without a time. -/
def dateTime : Scanner Unit := do
  date
  if startsJoinedTime (← rest) then
    let _ ← modify (·.drop 1)
    time
    offset

end JobRoster.Toml
