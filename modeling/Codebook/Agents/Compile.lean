/-
This file compiles agent dictionaries. A line gives a phrase, its plural in braces if that is not
regular, and a code. A line such as `!PERSON! = MAN, MEN` defines a marker; a phrase with the
marker in it stands for one phrase per item. Markers last to the end of their file.
-/

import Codebook.Agents.Dictionary
import Codebook.Compilation
import Codebook.Inflection

namespace Codebook

open Text

/-- Reads an agent code. The `~` tells the side; without one the code is written after the
actor's. -/
def AgentCode.read (raw : List Char) : Except Skip AgentCode :=
  let (code, side) := match raw with
    | '~' :: code => (code, Side.after)
    | _ =>
      match stripLast? '~' raw with
      | some code => (code, Side.before)
      | none => (raw, Side.after)
  let code := trim code
  if code.isEmpty ∨ code.any isSpace then .error (.badAgentCode (String.ofList raw))
  else .ok ⟨String.ofList code, side⟩

/-- How far the compilation of an agent dictionary has come. -/
structure AgentState where
  dictionary : AgentDictionary
  /-- The markers defined so far, with their items. -/
  markers : SortedMap String (List String)
deriving DecidableEq

namespace AgentState

def start : AgentState :=
  ⟨.empty, .empty⟩

def addMarker (name : String) (items : List String) (state : AgentState) : AgentState :=
  { state with markers := state.markers.insert name items }

/-- Stores spellings of a phrase. One without any word is passed over. -/
def storeAll (spellings : List (List Char)) (code : AgentCode) (state : AgentState) : AgentState :=
  let paths := spellings.map fun spelling => (Phrase.ofChars spelling).rooted
  let phrases := (paths.filter fun path => !path.isEmpty).map (·, code)
  { state with dictionary := ⟨state.dictionary.phrases.insertAll phrases⟩ }

/-- Defines a marker, in place of an earlier definition. The text is given behind its first
`!`. -/
def defineMarker (text : List Char) : Handling AgentState Unit := do
  let some (name, rest) := splitAt? (· == '!') text | throw .unclosedMarkerName
  let some (_, items) := splitAt? (· == '=') rest | throw .markerWithoutItems
  let items := (pieces (· == ',') items).map fun item => upperChars (trim item)
  let items := (items.filter fun item => !item.isEmpty).map String.ofList
  modify (addMarker (String.ofList (upperChars (trim name))) items)

/-- Stores a phrase with a marker in it: one spelling per item, and no plurals. Only the first
marker is looked at. -/
def expandMarker (phrase : List Char) (code : AgentCode) : Handling AgentState Unit := do
  let some (head, rest) := splitAt? (· == '!') phrase | return
  let some (name, tail) := splitAt? (· == '!') rest | throw (.unclosedMarker (String.ofList phrase))
  let name := String.ofList name
  let some items := (← get).markers.get? name | throw (.undefinedMarker name)
  modify (storeAll (items.map fun item => head ++ item.toList ++ tail) code)

/-- Splits a line without its code into the phrase and the plural in braces. -/
def splitPlural (body : List Char) : Except Skip (List Char × Option (List Char)) :=
  match splitAt? (· == '\x7b') body with
  | none => .ok (body, none)
  | some (phrase, rest) =>
    match splitAt? (· == '\x7d') rest with
    | none => .error .unclosedPlural
    | some (plural, _) => .ok (trim phrase, some (trim plural))

/-- The spellings of a phrase without markers: the phrase, and its plural. Without braces the
plural is the regular one, with empty braces there is none. -/
def spellings (phrase : List Char) (plural? : Option (List Char)) : List (List Char) :=
  match plural? with
  | none => [phrase, Inflection.agentPlural phrase]
  | some [] => [phrase]
  | some plural => [phrase, upperChars plural]

def storePhrase (line : List Char) : Handling AgentState Unit := do
  let (body, code?) := splitCode line
  let some raw := code? | throw .agentWithoutCode
  let code ← AgentCode.read raw.toList
  let (phrase, plural?) ← splitPlural body
  let phrase := upperChars (dropEndWhile (· == '_') phrase)
  if phrase.isEmpty then throw .agentWithoutPhrase
  if phrase.contains '!' then expandMarker phrase code
  else modify (storeAll (spellings phrase plural?) code)

/-- Stores the entry on a line, or says why it is skipped. -/
def store (line : List Char) : Handling AgentState Unit :=
  match line with
  | '!' :: rest => if rest.contains '=' then defineMarker rest else storePhrase line
  | _ => storePhrase line

def handle (state : AgentState) (line : Line) : AgentState × Option Skip :=
  (store (trim line.text)).perform state

end AgentState

def AgentDictionary.compile (file : String) (script : Script) : Compilation AgentDictionary :=
  let (state, diagnostics) := handleLines AgentState.handle file .start script.lines
  { dictionary := state.dictionary, diagnostics, failedAfter := script.failedAfter }

end Codebook
