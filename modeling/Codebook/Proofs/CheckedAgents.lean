/-
This file compiles agent dictionaries with every access checked. Besides the trie there is one: what
defines a marker is sliced out behind the first byte of a line that starts with a `!`. Main
statement: no access fails, so that checking changes nothing (`AgentDictionary.compileChecked_eq`).
-/

import Codebook.Proofs.AgentLines
import Codebook.Proofs.CheckedReading

namespace Codebook

open Text

/-! ### Lines -/

/-- What stands on a trimmed line. The definition of a marker is sliced out behind the `!`, of which
only the first byte is skipped. -/
def AgentItem.readChecked (line : List Char) : Except Access (Except Skip AgentItem) := do
  if line.head? = some '!' ∧ line.contains '=' then
    return readMarker (← Access.slice line 1 (byteCount line))
  else return readRole line

theorem AgentItem.readChecked_eq (line : List Char) :
    readChecked line = .ok (AgentItem.read line) := by
  unfold readChecked
  split
  next isDefinition =>
    obtain ⟨starts, hasSign⟩ := isDefinition
    obtain ⟨rest, rfl⟩ := List.head?_eq_some_iff.mp starts
    have behind : Access.slice ('!' :: rest) 1 (byteCount ('!' :: rest)) = .ok rest :=
      Access.slice_eq_ok ['!'] rest [] (by simp) rfl (by rw [byteCount_cons]; rfl)
    rw [behind, Access.ok_bind, AgentItem.read, if_pos (by simpa using hasSign)]
    rfl
  next notDefinition =>
    rw [AgentItem.read_of_not_isDefinition]
    · rfl
    · rintro ⟨rest, rfl, hasSign⟩
      exact notDefinition ⟨rfl, by simp [hasSign]⟩

namespace AgentState

def storeAllChecked (spellings : List (List Char)) (code : AgentCode) (state : AgentState) :
    Except Access AgentState := do
  let paths := spellings.map fun spelling => (Phrase.ofChars spelling).rooted
  let phrases := (paths.filter fun path => !path.isEmpty).map (·, code)
  return { state with dictionary := ⟨← state.dictionary.phrases.insertAllChecked phrases⟩ }

def handleChecked (state : AgentState) (line : Line) :
    Except Access (AgentState × Option Skip) := do
  match ← AgentItem.readChecked (trim line.text) with
  | .error skip => return (state, some skip)
  | .ok (.marker name items) => return (state.addMarker name items, none)
  | .ok (.role phrase plural? code) =>
    match spellingsOf state.markers.get? phrase plural? with
    | .error skip => return (state, some skip)
    | .ok spellings => return (← state.storeAllChecked spellings code, none)

theorem storeAllChecked_eq {state : AgentState} (closed : state.dictionary.phrases.IsClosed)
    (spellings : List (List Char)) (code : AgentCode) :
    state.storeAllChecked spellings code = .ok (state.storeAll spellings code) := by
  rw [storeAllChecked, Trie.insertAllChecked_eq closed]
  rfl

theorem unfailing :
    Unfailing (fun state => state.dictionary.phrases.IsClosed) handleChecked handle where
  agrees {state} closed line := by
    rw [handleChecked, AgentItem.readChecked_eq, Access.ok_bind, handle_eq]
    rcases AgentItem.read (trim line.text) with skip | ⟨name, items⟩ | ⟨phrase, plural?, code⟩
    · rfl
    · rfl
    · dsimp only [settle]
      cases spellingsOf state.markers.get? phrase plural? with
      | error skip => rfl
      | ok spellings =>
        dsimp only
        rw [storeAllChecked_eq closed]
        rfl
  remains {state} closed line := by
    rw [handle_eq]
    rcases AgentItem.read (trim line.text) with skip | ⟨name, items⟩ | ⟨phrase, plural?, code⟩
    · exact closed
    · exact closed
    · dsimp only [settle]
      cases spellingsOf state.markers.get? phrase plural? with
      | error skip => exact closed
      | ok spellings => exact closed.insertAll _

end AgentState

/-! ### Files -/

namespace AgentDictionary

/-- Compiles an agent dictionary in a context in which diagnostics have been reported before. -/
def compileChecked (reported : Array Diagnostic) (file : String) (lines : List PhysicalLine) :
    Except Access (Compilation AgentDictionary) := do
  let start := (AgentState.start, reported)
  let done ← readChecked AgentState.handleChecked (fun _ => false) file .outside 0 start lines
  return { done with dictionary := done.dictionary.dictionary }

theorem compileChecked_eq (reported : Array Diagnostic) (file : String)
    (lines : List PhysicalLine) :
    compileChecked reported file lines =
      .ok ((compile file (Script.ofLines lines)).after reported) := by
  have closed : AgentState.start.dictionary.phrases.IsClosed := Trie.isClosed_empty
  rw [compileChecked, AgentState.unfailing.readChecked_eq _ file .outside 0 closed lines,
    Access.ok_bind, ← Script.ofLines_eq, Script.cutAt_never, Script.handled_eq]
  rfl

end AgentDictionary

end Codebook
