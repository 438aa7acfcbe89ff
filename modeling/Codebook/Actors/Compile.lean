/-
This file compiles actor dictionaries. A primary line opens a cluster; lines that start with `+`
add synonyms to it, and lines that start with a tab add dated codes. What follows a `;` is an
annotation. A stop marker ends the file, whatever comes after it.
-/

import Codebook.Actors.Restriction
import Codebook.Compilation

namespace Codebook

open Text

/-- The mark that ends a file. -/
def stopMark : List Char := "---STOP---".toList

/-- The cluster whose lines are being read. -/
structure OpenCluster where
  index : Nat
  /-- The phrase on the primary line. -/
  phrase : String
deriving DecidableEq, Repr

/-- How far the compilation of an actor dictionary has come. -/
structure ActorState where
  dictionary : ActorDictionary
  current : Option OpenCluster
deriving DecidableEq

namespace ActorState

/-- Completes the open cluster, which gets its root written if roots are kept. -/
def close (keepRoots : Bool) (state : ActorState) : ActorState :=
  match state.current with
  | none => state
  | some cluster =>
    let write := fun complete : Cluster =>
      if keepRoots then { complete with root := some cluster.phrase } else complete
    let clusters := state.dictionary.clusters.modify cluster.index write
    ⟨{ state.dictionary with clusters }, none⟩

def addPhrase (path : Path) (cluster : Nat) (state : ActorState) : ActorState :=
  let phrases := state.dictionary.phrases.insert path cluster
  { state with dictionary := { state.dictionary with phrases } }

def addCluster (cluster : Cluster) (state : ActorState) : ActorState :=
  let clusters := state.dictionary.clusters.push cluster
  { state with dictionary := { state.dictionary with clusters } }

def addEntry (entry : DatedCode) (cluster : Nat) (state : ActorState) : ActorState :=
  let add := fun open_ : Cluster => { open_ with entries := open_.entries ++ [entry] }
  let clusters := state.dictionary.clusters.modify cluster add
  { state with dictionary := { state.dictionary with clusters } }

/-- Opens a cluster with a primary phrase. Its own code has no period. -/
def openCluster (keepRoots : Bool) (text : List Char) : Handling ActorState Unit := do
  let (phrase, code?) := splitCode text
  let path := (Phrase.ofChars phrase).rooted
  if path.isEmpty then throw .actorWithoutPhrase
  modify (close keepRoots)
  let index := (← get).dictionary.clusters.size
  modify (addCluster ⟨(code?.map (DatedCode.mk .always)).toList, none⟩)
  modify (addPhrase path index)
  modify fun state => { state with current := some ⟨index, String.ofList phrase⟩ }

/-- Adds a phrase to the open cluster. A code on the line counts for nothing. -/
def addSynonym (text : List Char) : Handling ActorState Unit := do
  let some cluster := (← get).current | throw .synonymBeforeActor
  let path := (Phrase.ofChars (splitCode text).1).rooted
  if path.isEmpty then throw .synonymWithoutPhrase
  modify (addPhrase path cluster.index)

def addCode (text : List Char) : Handling ActorState Unit := do
  let some cluster := (← get).current | throw .restrictionBeforeActor
  let entry ← DatedCode.read text
  modify (addEntry entry cluster.index)

/-- Stores the entry on a line, or says why it is skipped. -/
def store (keepRoots : Bool) (line : List Char) : Handling ActorState Unit :=
  match line with
  | '\t' :: _ => addCode (trim line)
  | _ =>
    match trim (line.takeWhile (· != ';')) with
    | '+' :: synonym => addSynonym synonym
    | text => openCluster keepRoots text

def handle (keepRoots : Bool) (state : ActorState) (line : Line) : ActorState × Option Skip :=
  (store keepRoots line.text).perform state

/-! ### What the parts of the compiler do -/

/-- A primary line is refused before the open cluster is completed. -/
theorem perform_openCluster (keepRoots : Bool) (text : List Char) (state : ActorState) :
    (openCluster keepRoots text).perform state =
      if (Phrase.ofChars (splitCode text).1).rooted.isEmpty then (state, some .actorWithoutPhrase)
      else
        let complete := (state.close keepRoots).dictionary
        let index := complete.clusters.size
        let entries := ((splitCode text).2.map (DatedCode.mk .always)).toList
        ({ dictionary :=
            { phrases := complete.phrases.insert (Phrase.ofChars (splitCode text).1).rooted index
              clusters := complete.clusters.push ⟨entries, none⟩ }
           current := some ⟨index, String.ofList (splitCode text).1⟩ }, none) := by
  unfold openCluster
  cases empty : (Phrase.ofChars (splitCode text).1).rooted.isEmpty <;> simp only [empty] <;> rfl

theorem perform_addSynonym (text : List Char) (state : ActorState) :
    (addSynonym text).perform state =
      match state.current with
      | none => (state, some .synonymBeforeActor)
      | some cluster =>
        let path := (Phrase.ofChars (splitCode text).1).rooted
        if path.isEmpty then (state, some .synonymWithoutPhrase)
        else (state.addPhrase path cluster.index, none) := by
  obtain ⟨dictionary, _ | cluster⟩ := state
  · rfl
  · unfold addSynonym
    cases empty : (Phrase.ofChars (splitCode text).1).rooted.isEmpty <;> simp only [empty] <;> rfl

theorem perform_addCode (text : List Char) (state : ActorState) :
    (addCode text).perform state =
      match state.current with
      | none => (state, some .restrictionBeforeActor)
      | some cluster =>
        match DatedCode.read text with
        | .error skip => (state, some skip)
        | .ok entry => (state.addEntry entry cluster.index, none) := by
  obtain ⟨dictionary, _ | cluster⟩ := state
  · rfl
  · unfold addCode
    cases DatedCode.read text <;> rfl

end ActorState

namespace Script

/-- Whether a cleaned line bears the stop marker. -/
def isStop (line : Line) : Bool :=
  (cutAt? stopMark line.text).isSome

/-- The script up to a line with the stop marker. What comes after the marker is not read, so it
cannot fail either. -/
def untilStop (script : Script) : Script :=
  if script.lines.any isStop then ⟨script.lines.takeWhile (!isStop ·), none⟩ else script

end Script

namespace ActorDictionary

/-- Compiles an actor dictionary into what has been compiled before: its clusters come behind the
earlier ones. The last cluster is complete at the end of the file, but not where a file fails. -/
def compileInto (keepRoots : Bool) (earlier : ActorDictionary) (file : String) (script : Script) :
    Compilation ActorDictionary :=
  let script := script.untilStop
  let (state, diagnostics) :=
    handleLines (ActorState.handle keepRoots) file ⟨earlier, none⟩ script.lines
  let state := if script.failedAfter.isNone then state.close keepRoots else state
  { dictionary := state.dictionary, diagnostics, failedAfter := script.failedAfter }

end ActorDictionary

end Codebook
