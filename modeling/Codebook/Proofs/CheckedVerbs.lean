/-
This file compiles verb dictionaries with every access checked. Besides the tries these are the
words of a multi-word verb: the first one that is marked is found by its index, it is taken there
and sliced behind its mark, and the words on both sides of it are taken. Main statement: no access
fails, so that checking changes nothing (`VerbDictionary.compileChecked_eq`).
-/

import Codebook.Proofs.CheckedReading
import Codebook.Proofs.VerbLines

namespace Codebook

open Text

namespace Access

variable {Item : Type}

/-- The items from an index on, which may be the end. -/
def behind (access : Access) (items : List Item) (start : Nat) : Except Access (List Item) :=
  access.need (if start ≤ items.length then some (items.drop start) else none)

/-- The items before an index, which may be the end. -/
def before (access : Access) (items : List Item) (stop : Nat) : Except Access (List Item) :=
  access.need (if stop ≤ items.length then some (items.take stop) else none)

theorem behind_append (access : Access) (front back : List Item) :
    access.behind (front ++ back) front.length = .ok back := by
  rw [behind, if_pos (by simp), List.drop_left, need]

theorem before_append (access : Access) (front back : List Item) :
    access.before (front ++ back) front.length = .ok front := by
  rw [before, if_pos (by simp), List.take_left, need]

end Access

structure VerbDictionary.IsClosed (verbs : VerbDictionary) : Prop where
  forms : verbs.forms.IsClosed
  patterns : verbs.patterns.IsClosed
  synsets : verbs.synsets.IsClosed

theorem VerbDictionary.isClosed_empty : empty.IsClosed where
  forms := Trie.isClosed_empty
  patterns := Trie.isClosed_empty
  synsets := Trie.isClosed_empty

namespace VerbState

variable {state : VerbState}

/-- `splitAtMark?`: the first word marked with `+` is found by its index, at which it and the words
around it are taken. Of the marked word the first byte is skipped. -/
def splitAtMarkChecked (words : List (List Char)) :
    Except Access (Option (List (List Char) × List Char × List (List Char))) := do
  match words.findIdx? fun word => word.head? == some '+' with
  | none => return none
  | some index =>
    let marked ← Access.word.need words[index]?
    let root ← Access.slice marked 1 (byteCount marked)
    let after ← Access.word.behind words (index + 1)
    let before ← Access.word.before words index
    return some (before, root, after)

def multiWordSurfacesChecked (line : VerbLine) :
    Except Access (Except Skip (List (List Char))) := do
  match line.forms with
  | some forms => return .ok (line.verb :: forms)
  | none =>
    match ← splitAtMarkChecked (pieces (· == '_') line.verb) with
    | none => return .error (.multiWordWithoutRoot (String.ofList line.verb))
    | some (before, root, after) =>
      return .ok (line.verb :: (Inflection.verbForms root).map fun form =>
        ['_'].intercalate (before ++ ('+' :: form) :: after))

def multiWordPathChecked (surface : List Char) : Except Access (Option Path) := do
  let parts? ← splitAtMarkChecked (runs (· == '_') surface)
  return parts?.map fun (before, root, after) =>
    let neighbours := fun words : List (List Char) =>
      words.map fun word => Phrase.literal (String.ofList word) .adjacent
    [.root (String.ofList root)] ++ neighbours after ++ [.boundary] ++
      (neighbours before).reverse

def addMemberChecked (state : VerbState) (synset : OpenSynset) (text : List Char) :
    Except Access (Except Skip VerbState) := do
  let spellings := memberSpellings synset text
  if spellings.isEmpty then return .error (.emptyMember synset.name)
  else
    let phrases := spellings.map fun spelling => ((Phrase.ofChars spelling).rooted, synset.name)
    let synsets ← state.dictionary.synsets.insertAllChecked phrases
    return .ok { state with dictionary := { state.dictionary with synsets } }

def storePatternChecked (state : VerbState) (pattern : Pattern) : Except Access VerbState := do
  let patterns ← state.dictionary.patterns.insertChecked pattern.path pattern.entry
  return { state with dictionary := { state.dictionary with patterns } }

def takePrimaryChecked (state : VerbState) (entry : VerbEntry) : Except Access VerbState := do
  if state.awaitingPrimary ∨ state.anchor = none then
    let path := VerbDictionary.formPath entry.anchor
    let patterns ← state.dictionary.patterns.insertChecked path entry
    return { state with
      dictionary := { state.dictionary with patterns }
      anchor := some entry.anchor
      awaitingPrimary := false }
  else return state

def addFormsChecked (state : VerbState) (paths : List Path) (entry : VerbEntry) :
    Except Access VerbState := do
  let forms ← state.dictionary.forms.insertAllChecked (paths.map (·, entry))
  return { state with dictionary := { state.dictionary with forms } }

def addMultiWordChecked (state : VerbState) (line : VerbLine) (entry : VerbEntry) :
    Except Access (VerbState × Option Skip) := do
  match ← multiWordSurfacesChecked line with
  | .error skip => return (state, some skip)
  | .ok surfaces =>
    let found ← surfaces.mapM fun surface => do return (surface, ← multiWordPathChecked surface)
    let unmarked := (found.filter fun surface => surface.2.isNone).map (·.1)
    let stored ← state.addFormsChecked (found.filterMap (·.2)) entry
    return (stored, if unmarked.isEmpty then none
      else some (.unmarkedForms (String.ofList line.verb) (unmarked.map String.ofList)))

def addVerbChecked (state : VerbState) (body : List Char) (code? : Option String) (number : Nat) :
    Except Access (VerbState × Option Skip) := do
  match readVerbLine body with
  | .error skip => return (state, some skip)
  | .ok line =>
    let verb := String.ofList line.verb
    let code := code?.getD state.blockCode
    let state ← state.takePrimaryChecked ⟨verb, code, number⟩
    let entry : VerbEntry := ⟨state.anchor.getD verb, code, number⟩
    if line.verb.contains '_' then state.addMultiWordChecked line entry
    else
      let paths := (surfaces line).map fun surface =>
        VerbDictionary.formPath (String.ofList surface)
      return (← state.addFormsChecked paths entry, none)

def handleChecked (state : VerbState) (line : Line) :
    Except Access (VerbState × Option Skip) := do
  match state.item line with
  | .member synset text => return orSkip state (← state.addMemberChecked synset text)
  | .header code? => return (state.closeSynset.openBlock code?, none)
  | .pattern text code? =>
    match state.closeSynset.readPattern text code? line.number with
    | .error skip => return (state.closeSynset, some skip)
    | .ok pattern => return (← state.closeSynset.storePatternChecked pattern, none)
  | .synset header => return orSkip state.closeSynset (state.closeSynset.openSynset header)
  | .verb text code? => state.closeSynset.addVerbChecked text code? line.number

theorem findIdx?_isMarked_of_unmarked {words : List (List Char)}
    (unmarked : ∀ word ∈ words, word.head? ≠ some '+') :
    words.findIdx? (fun word => word.head? == some '+') = none :=
  List.findIdx?_eq_none_iff.mpr fun word member => beq_eq_false_iff_ne.mpr (unmarked word member)

theorem findIdx?_isMarked_append {before : List (List Char)}
    (unmarked : ∀ word ∈ before, word.head? ≠ some '+') (root : List Char)
    (after : List (List Char)) :
    (before ++ ('+' :: root) :: after).findIdx? (fun word => word.head? == some '+') =
      some before.length := by
  rw [List.findIdx?_append, findIdx?_isMarked_of_unmarked unmarked, List.findIdx?_cons]
  simp

/-- The marked word is there, its first byte is the mark, and both ends are within the words. -/
theorem splitAtMarkChecked_eq (words : List (List Char)) :
    splitAtMarkChecked words = .ok (splitAtMark? words) := by
  unfold splitAtMarkChecked
  cases found : splitAtMark? words with
  | none =>
    have unmarked : ∀ word ∈ words, word.head? ≠ some '+' := fun word member marked => by
      have isSplit := isSome_splitAtMark?_iff.mpr ⟨word, member, marked⟩
      rw [found] at isSplit
      cases isSplit
    rw [findIdx?_isMarked_of_unmarked unmarked]
    rfl
  | some parts =>
    obtain ⟨before, root, after⟩ := parts
    obtain ⟨rfl, unmarked⟩ := splitAtMark?_eq_some_iff.mp found
    have isMarked : (before ++ ('+' :: root) :: after)[before.length]? = some ('+' :: root) := by
      simp
    have skipped : Access.slice ('+' :: root) 1 (byteCount ('+' :: root)) = .ok root :=
      Access.slice_eq_ok ['+'] root [] (by simp) rfl (by rw [byteCount_cons]; rfl)
    have behind : Access.word.behind (before ++ ('+' :: root) :: after) (before.length + 1) =
        .ok after := by
      have := Access.word.behind_append (before ++ ['+' :: root]) after
      rwa [List.append_assoc, List.singleton_append, List.length_append] at this
    rw [findIdx?_isMarked_append unmarked]
    dsimp only
    rw [Access.need_of_eq_some isMarked, Access.ok_bind, skipped, Access.ok_bind, behind,
      Access.ok_bind, Access.before_append, Access.ok_bind]
    rfl

theorem multiWordSurfacesChecked_eq (line : VerbLine) :
    multiWordSurfacesChecked line = .ok (multiWordSurfaces line) := by
  rw [multiWordSurfacesChecked, multiWordSurfaces, splitAtMarkChecked_eq, Access.ok_bind]
  cases line.forms with
  | some forms => rfl
  | none => cases splitAtMark? (pieces (· == '_') line.verb) <;> rfl

theorem multiWordPathChecked_eq (surface : List Char) :
    multiWordPathChecked surface = .ok (multiWordPath? surface) := by
  rw [multiWordPathChecked, splitAtMarkChecked_eq, Access.ok_bind]
  rfl

theorem mapM_multiWordPathChecked (surfaces : List (List Char)) :
    (surfaces.mapM fun surface => do return (surface, ← multiWordPathChecked surface)) =
      .ok (surfaces.map fun surface => (surface, multiWordPath? surface)) := by
  induction surfaces with
  | nil => rfl
  | cons surface others inductionHypothesis =>
    rw [List.mapM_cons, inductionHypothesis, multiWordPathChecked_eq]
    rfl

theorem addMemberChecked_eq (closed : state.dictionary.IsClosed) (synset : OpenSynset)
    (text : List Char) :
    state.addMemberChecked synset text = .ok (state.addMember synset text) := by
  unfold addMemberChecked addMember memberSpellings
  dsimp only
  rw [Trie.insertAllChecked_eq closed.synsets]
  split
  next => rfl
  next => split <;> rfl

theorem takePrimaryChecked_eq (closed : state.dictionary.IsClosed) (entry : VerbEntry) :
    state.takePrimaryChecked entry = .ok (state.takePrimary entry) := by
  rw [takePrimaryChecked, takePrimary]
  dsimp only
  rw [Trie.insertChecked_eq closed.patterns]
  split <;> rfl

theorem isClosed_takePrimary (closed : state.dictionary.IsClosed) (entry : VerbEntry) :
    (state.takePrimary entry).dictionary.IsClosed := by
  rw [takePrimary]
  split
  next => exact ⟨closed.forms,
      closed.patterns.insert (VerbDictionary.formPath entry.anchor) entry, closed.synsets⟩
  next => exact closed

theorem addFormsChecked_eq (closed : state.dictionary.IsClosed) (paths : List Path)
    (entry : VerbEntry) : state.addFormsChecked paths entry = .ok (state.addForms paths entry) := by
  rw [addFormsChecked, Trie.insertAllChecked_eq closed.forms]
  rfl

theorem addMultiWordChecked_eq (closed : state.dictionary.IsClosed) (line : VerbLine)
    (entry : VerbEntry) :
    state.addMultiWordChecked line entry = .ok (state.addMultiWord line entry) := by
  rw [addMultiWordChecked, addMultiWord, multiWordSurfacesChecked_eq, Access.ok_bind]
  cases multiWordSurfaces line with
  | error skip => rfl
  | ok surfaces =>
    have unmarked : ((surfaces.map fun surface => (surface, multiWordPath? surface)).filter
        fun surface => surface.2.isNone).map (·.1) =
          surfaces.filter fun surface => (multiWordPath? surface).isNone := by
      rw [List.filter_map, List.map_map]
      exact List.map_id _
    dsimp only
    rw [mapM_multiWordPathChecked, Access.ok_bind, unmarked, List.filterMap_map,
      addFormsChecked_eq closed, Access.ok_bind]
    rfl

theorem addVerbChecked_eq (closed : state.dictionary.IsClosed) (body : List Char)
    (code? : Option String) (number : Nat) :
    state.addVerbChecked body code? number = .ok (state.addVerb body code? number) := by
  rw [addVerbChecked, addVerb]
  cases readVerbLine body with
  | error skip => rfl
  | ok line =>
    dsimp only
    rw [takePrimaryChecked_eq closed, Access.ok_bind]
    have primaryClosed := isClosed_takePrimary closed
      ⟨String.ofList line.verb, code?.getD state.blockCode, number⟩
    split
    next => exact addMultiWordChecked_eq primaryClosed line _
    next =>
      rw [addFormsChecked_eq primaryClosed]
      rfl

theorem unfailing : Unfailing (fun state => state.dictionary.IsClosed) handleChecked handle where
  agrees {state} closed line := by
    have closed' : state.closeSynset.dictionary.IsClosed := closed
    rw [handleChecked, handle]
    cases state.item line with
    | member synset text =>
      dsimp only
      rw [addMemberChecked_eq closed]
      rfl
    | header code? => rfl
    | pattern text code? =>
      dsimp only
      rw [addPattern]
      cases state.closeSynset.readPattern text code? line.number with
      | error skip => rfl
      | ok pattern =>
        dsimp only
        rw [storePatternChecked, Trie.insertChecked_eq closed'.patterns]
        rfl
    | synset header => rfl
    | verb text code? => exact addVerbChecked_eq closed' text code? line.number
  remains {state} closed line := by
    rw [fst_handle]
    exact ⟨closed.forms.insertAll _, closed.patterns.insertAll _, closed.synsets.insertAll _⟩

end VerbState

/-! ### Files -/

namespace VerbDictionary

/-- Compiles a verb dictionary in a context in which diagnostics have been reported before. -/
def compileChecked (reported : Array Diagnostic) (file : String) (lines : List PhysicalLine) :
    Except Access (Compilation VerbDictionary) := do
  let start := (VerbState.start, reported)
  let done ← readChecked VerbState.handleChecked (fun _ => false) file .outside 0 start lines
  return { done with dictionary := done.dictionary.dictionary }

theorem compileChecked_eq (reported : Array Diagnostic) (file : String)
    (lines : List PhysicalLine) :
    compileChecked reported file lines =
      .ok ((compile file (Script.ofLines lines)).after reported) := by
  rw [compileChecked, VerbState.unfailing.readChecked_eq _ file .outside 0 isClosed_empty lines,
    Access.ok_bind, ← Script.ofLines_eq, Script.cutAt_never, Script.handled_eq]
  rfl

end VerbDictionary

end Codebook
