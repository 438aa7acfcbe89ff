/-
This file turns written dates into ordinal days. Dates are days of the Gregorian calendar, carried
back before its introduction, and are written `YYYYMMDD` or, with a two-digit year, `YYMMDD`.
Ordinal 1 is 1 January 1601; ordinals are only compared, never written back as dates.
-/

import Codebook.Text.Quoted

namespace Codebook

/-- A year, a month and a day, not yet known to be a day of the calendar. -/
structure Date where
  year : Int
  month : Nat
  day : Nat
deriving DecidableEq, Repr, Inhabited

/-- What is wrong with a written date. -/
inductive DateFault
  /-- The text ends, or its digits stop, before the date is complete. -/
  | tooShort
  /-- A field holds something other than the digits 0 to 9. -/
  | notDigits
  | noSuchMonth
  | dayZero
  | dayBeyondMonth
deriving DecidableEq, Repr

namespace DateFault

def reason : DateFault → String
  | tooShort => "too short"
  | notDigits => "non-digit field"
  | noSuchMonth => "month out of range"
  | dayZero => "day must be positive"
  | dayBeyondMonth => "day exceeds length of month"

end DateFault

/-- A text that is no date, and why. -/
structure DateError where
  input : String
  fault : DateFault
deriving DecidableEq, Repr

/-- The message shows the text in quotes. -/
def DateError.message (error : DateError) : String :=
  s!"invalid date {Text.quoted error.input}: {error.fault.reason}"

namespace Date

/-! ### The calendar -/

/-- Every fourth year is a leap year, of the centuries every fourth. -/
def isLeapYear (year : Int) : Bool :=
  if year % 400 = 0 then true
  else if year % 100 = 0 then false
  else year % 4 = 0

def daysInMonth (year : Int) (month : Nat) : Nat :=
  match month with
  | 2 => if isLeapYear year then 29 else 28
  | 4 | 6 | 9 | 11 => 30
  | _ => 31

/-- The Julian day number. The year is taken to begin in March, so that the leap day is its last
day and the months before a given one have `(153 m + 2) / 5` days. -/
def julianDay (date : Date) : Int :=
  let shift : Int := if date.month < 3 then 1 else 0
  let year := date.year + 4800 - shift
  let month := (date.month : Int) + 12 * shift - 3
  date.day + (153 * month + 2) / 5 + 365 * year + year / 4 - year / 100 + year / 400 - 32045

/-- The Julian day number of 31 December 1600. -/
def epoch : Int := 2305813

/-- The ordinal of a day: 1 January 1601 is day 1. -/
def ordinal (date : Date) : Int :=
  date.julianDay - epoch

example : ordinal ⟨1601, 1, 1⟩ = 1 := by decide

/-- What keeps a date from being a day of the calendar. The month is looked at first. -/
def fault? (date : Date) : Option DateFault :=
  if date.month < 1 ∨ 12 < date.month then some .noSuchMonth
  else if date.day = 0 then some .dayZero
  else if daysInMonth date.year date.month < date.day then some .dayBeyondMonth
  else none

def Valid (date : Date) : Prop :=
  date.fault? = none

instance (date : Date) : Decidable date.Valid :=
  inferInstanceAs (Decidable (date.fault? = none))

/-! ### Written dates -/

/-- Takes the characters that fill exactly `bytes` bytes in UTF-8 off the front of a text. There
are none if the text is too short, or if a character would have to be cut in two. -/
def takeBytes? : Nat → List Char → Option (List Char × List Char)
  | 0, text => some ([], text)
  | _ + 1, [] => none
  | bytes + 1, c :: rest =>
    if c.utf8Size ≤ bytes + 1 then
      (takeBytes? (bytes + 1 - c.utf8Size) rest).map fun (taken, left) => (c :: taken, left)
    else none

def digitsValue (digits : List Char) : Nat :=
  digits.foldl (fun value c => 10 * value + (c.toNat - '0'.toNat)) 0

/-- Reads a field of `width` digits off the front of a text. -/
def readField (width : Nat) (text : List Char) : Except DateFault (Nat × List Char) :=
  match takeBytes? width text with
  | none => .error .tooShort
  | some (field, rest) =>
    if field.all Char.isDigit then .ok (digitsValue field, rest) else .error .notDigits

/-- Two-digit years up to 30 belong to the years after 2000, the others to those after 1900. -/
def expandYear (year : Nat) : Nat :=
  if year ≤ 30 then 2000 + year else 1900 + year

/-- Reads the fields of a date. A text of more than seven characters starts with a four-digit
year, any other with a two-digit one; what follows the day is not looked at. -/
def readFields (text : List Char) : Except DateFault Date := do
  let long := 7 < text.length
  let (year, rest) ← readField (if long then 4 else 2) text
  let (month, rest) ← readField 2 rest
  let (day, _) ← readField 2 rest
  return ⟨if long then year else expandYear year, month, day⟩

/-- Reads a date that is a day of the calendar. -/
def ofChars (text : List Char) : Except DateFault Date := do
  let date ← readFields text
  match date.fault? with
  | some fault => .error fault
  | none => return date

end Date

/-- The ordinal of a written date. -/
def ordinalOfText (text : String) : Except DateError Int :=
  match Date.ofChars text.toList with
  | .ok date => .ok date.ordinal
  | .error fault => .error ⟨text, fault⟩

end Codebook
