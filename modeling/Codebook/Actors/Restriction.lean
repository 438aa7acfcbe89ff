/-
This file reads the bracketed codes that follow an actor: `[CODE]`, `[CODE <date]`, `[CODE >date]`
and `[CODE date-date]`. Dates are inclusive.
-/

import Codebook.Actors.Dictionary
import Codebook.Diagnostic
import Codebook.Text.Pieces

namespace Codebook

open Text

namespace DatedCode

def readDate (text : List Char) : Except Skip Int :=
  (ordinalOfText (String.ofList text)).mapError .badDate

/-- Reads the date of a one-sided period: the digits in front of anything else. -/
def readBound (text : List Char) : Except Skip Int :=
  readDate ((trimStart text).takeWhile Char.isDigit)

/-- Reads a period as it stands behind the code. -/
def readPeriod (dates : List Char) : Except Skip Period :=
  match dates with
  | [] => return .always
  | '<' :: date => return .until (← readBound date)
  | '>' :: date => return .since (← readBound date)
  | _ =>
    match splitAt? (· == '-') dates with
    | none => .error (.unknownRestriction (String.ofList dates))
    | some (first, last) => do
      let first ← readDate (trim first)
      let last ← readDate (trim last)
      if last < first then .error (.reversedInterval (String.ofList dates))
      else return .between first last

/-- The text between a `[` at the start and the first `]`. -/
def insideBrackets? : List Char → Option (List Char)
  | '[' :: rest => (splitAt? (· == ']') rest).map (·.1)
  | _ => none

/-- Reads a bracketed code with its period. -/
def read (text : List Char) : Except Skip DatedCode := do
  let some inner := insideBrackets? text | throw .restrictionWithoutBrackets
  let (code, dates) := (splitAt? isSpace (trim inner)).getD (trim inner, [])
  if code.isEmpty then throw .restrictionWithoutCode
  let period ← readPeriod (trim dates)
  return ⟨period, String.ofList code⟩

end DatedCode

end Codebook
