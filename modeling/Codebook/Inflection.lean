/-
This file forms the regular inflections that dictionaries leave out. The rules are those of
English spelling and look at the last letters only; roots and phrases are expected in upper case.
-/

import Codebook.Text.Pieces

namespace Codebook.Inflection

open Text

/-- Whether the last character is one of `letters`. -/
def endsIn (letters : List Char) (text : List Char) : Bool :=
  text.getLast?.any letters.contains

/-- The third person of a verb: `S`, or `ES` after a sibilant. -/
def thirdPerson (root : List Char) : List Char :=
  if endsIn ['S', 'X', 'Z'] root then root ++ ['E', 'S'] else root ++ ['S']

/-- The past of a verb: `ED`, of which a root in `E` brings its own `E`. -/
def past (root : List Char) : List Char :=
  if endsIn ['E'] root then root ++ ['D'] else root ++ ['E', 'D']

/-- The progressive of a verb: `ING`, before which a final `E` falls. -/
def progressive (root : List Char) : List Char :=
  (if endsIn ['E'] root then root.dropLast else root) ++ ['I', 'N', 'G']

/-- The generated forms of a regular verb: third person, past, progressive. -/
def verbForms (root : List Char) : List (List Char) :=
  [thirdPerson root, past root, progressive root]

/-- The plural of a synset member: `Y` becomes `IES`, anything else takes `S`. -/
def synsetPlural (phrase : List Char) : List Char :=
  if endsIn ['Y'] phrase then phrase.dropLast ++ ['I', 'E', 'S'] else phrase ++ ['S']

/-- The plural of an agent phrase: as for synsets, but a final `S` takes `ES`. -/
def agentPlural (phrase : List Char) : List Char :=
  if endsIn ['S'] phrase then phrase ++ ['E', 'S'] else synsetPlural phrase

example : (verbForms "ACCUSE".toList).map String.ofList = ["ACCUSES", "ACCUSED", "ACCUSING"] := by
  decide

example : String.ofList (agentPlural "MILITARY".toList) = "MILITARIES" := by decide

end Codebook.Inflection
