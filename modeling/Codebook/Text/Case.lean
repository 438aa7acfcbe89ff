/-
This file changes the case of texts. Upper case is the full Unicode mapping, under which one
character may become several (`ß` becomes `SS`); lower case is the full mapping of each character
on its own. Both act character by character, so they commute with concatenation.
-/

import Codebook.Text.CaseTable

namespace Codebook.Text

/-- The image of one character outside ASCII under a case mapping. -/
def mapCase (stretches : List CaseStretch) (expansions : List (Nat × List Nat)) (c : Char) :
    List Char :=
  match stretches.find? (·.covers c.toNat) with
  | some stretch => [Char.ofNat (stretch.partner c.toNat)]
  | none =>
    match expansions.find? (·.1 == c.toNat) with
    | some (_, codes) => codes.map Char.ofNat
    | none => [c]

def upperChar (c : Char) : List Char :=
  if c.toNat < 128 then [c.toUpper] else mapCase upperStretches upperExpansions c

/-- The lower case of one character. A capital sigma becomes the ordinary small one wherever it
stands. -/
def lowerChar (c : Char) : List Char :=
  if c.toNat < 128 then [c.toLower] else mapCase lowerStretches lowerExpansions c

/-- The characters with the property `Uppercase`. -/
def isUpper (c : Char) : Bool :=
  if c.toNat < 128 then 'A' ≤ c && c ≤ 'Z'
  else upperRanges.any fun (first, last, step) =>
    first ≤ c.toNat && c.toNat ≤ last && (c.toNat - first) % step == 0

def upperChars (text : List Char) : List Char :=
  text.flatMap upperChar

def lowerChars (text : List Char) : List Char :=
  text.flatMap lowerChar

def upper (text : String) : String :=
  String.ofList (upperChars text.toList)

@[simp] theorem upperChars_nil : upperChars [] = [] := rfl

@[simp] theorem upperChars_append (left right : List Char) :
    upperChars (left ++ right) = upperChars left ++ upperChars right := by
  simp [upperChars]

@[simp] theorem toList_upper (text : String) : (upper text).toList = upperChars text.toList := by
  simp [upper]

/-- Below 128 the mapping is the one of ASCII. -/
theorem upperChar_of_ascii {c : Char} (ascii : c.toNat < 128) : upperChar c = [c.toUpper] := by
  simp [upperChar, ascii]

end Codebook.Text
