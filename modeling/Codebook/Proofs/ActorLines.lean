/-
This file says what the lines of an actor file do. A line holds an item, which is a primary phrase,
a synonym or a dated code, or it is refused. What it holds depends on nothing but the line and on
whether a cluster is open. Main statement: a line with an item stores it, and a refused line leaves
everything as it is (`ActorState.handle_eq`).
-/

import Codebook.Actors.Compile
import Mathlib.Data.List.TakeWhile

namespace Codebook

open Text

/-- What counts on an actor line: the text before an annotation. -/
def actorText (line : List Char) : List Char :=
  trim (line.takeWhile (· != ';'))

/-- What there is to store on an actor line. -/
inductive ActorItem
  | primary (phrase : List Char) (code? : Option String)
  | synonym (phrase : List Char)
  | code (entry : DatedCode)
deriving DecidableEq, Repr

/-- A phrase has a path exactly if it has a word. -/
theorem Phrase.rooted_isEmpty (phrase : List Char) :
    (ofChars phrase).rooted.isEmpty = (splitWords phrase).isEmpty := by
  rw [← texts_ofChars, rooted]
  cases (ofChars phrase).tokens <;> rfl

namespace ActorItem

/-- The item on a primary line, of which the part that counts is given. -/
def readPrimary (text : List Char) : Except Skip ActorItem :=
  let phrase := (splitCode text).1
  if (Phrase.splitWords phrase).isEmpty then .error .actorWithoutPhrase
  else .ok (.primary phrase (splitCode text).2)

/-- The item on a synonym line, of which the part behind the `+` is given. -/
def readSynonym (isOpen : Bool) (text : List Char) : Except Skip ActorItem :=
  let phrase := (splitCode text).1
  if !isOpen then .error .synonymBeforeActor
  else if (Phrase.splitWords phrase).isEmpty then .error .synonymWithoutPhrase
  else .ok (.synonym phrase)

/-- The item on a line with a dated code. -/
def readCode (isOpen : Bool) (text : List Char) : Except Skip ActorItem :=
  if !isOpen then .error .restrictionBeforeActor else (DatedCode.read text).map .code

/-- The item on a line, or why the line is refused. A line goes by its first character, or by the
first one that counts. -/
def read (isOpen : Bool) (line : List Char) : Except Skip ActorItem :=
  if line.head? = some '\t' then readCode isOpen (trim line)
  else if (actorText line).head? = some '+' then readSynonym isOpen (actorText line).tail
  else readPrimary (actorText line)

end ActorItem

namespace ActorState

variable (keepRoots : Bool)

/-- Stores an item: a primary phrase opens a cluster, and anything else goes to the open one. -/
def put (state : ActorState) : ActorItem → ActorState
  | .primary phrase code? =>
    let complete := (state.close keepRoots).dictionary
    let index := complete.clusters.size
    { dictionary :=
        { phrases := complete.phrases.insert (Phrase.ofChars phrase).rooted index
          clusters := complete.clusters.push ⟨(code?.map (DatedCode.mk .always)).toList, none⟩ }
      current := some ⟨index, String.ofList phrase⟩ }
  | .synonym phrase =>
    state.current.elim state fun cluster =>
      state.addPhrase (Phrase.ofChars phrase).rooted cluster.index
  | .code entry => state.current.elim state fun cluster => state.addEntry entry cluster.index

/-- Stores what has been read, unless the line is refused. -/
def settle (state : ActorState) : Except Skip ActorItem → ActorState × Option Skip
  | .ok item => (state.put keepRoots item, none)
  | .error skip => (state, some skip)

/-- A line goes by its first character, or by the first one that counts. -/
theorem store_eq (line : List Char) :
    store keepRoots line =
      if line.head? = some '\t' then addCode (trim line)
      else if (actorText line).head? = some '+' then addSynonym (actorText line).tail
      else openCluster keepRoots (actorText line) := by
  unfold store
  split
  next => rfl
  next notTab =>
    have noTab : line.head? ≠ some '\t' := by
      intro isTab
      obtain ⟨rest, rfl⟩ := List.head?_eq_some_iff.mp isTab
      exact notTab rest rfl
    rw [if_neg noTab]
    split
    next synonym isPlus =>
      have shape : actorText line = '+' :: synonym := isPlus
      rw [shape, List.head?_cons, if_pos rfl, List.tail_cons]
    next text notPlus =>
      have noPlus : (actorText line).head? ≠ some '+' := by
        intro isPlus
        obtain ⟨rest, shape⟩ := List.head?_eq_some_iff.mp isPlus
        exact notPlus rest shape
      rw [if_neg noPlus]
      rfl

theorem perform_openCluster_eq (state : ActorState) (text : List Char) :
    (openCluster keepRoots text).perform state =
      state.settle keepRoots (ActorItem.readPrimary text) := by
  rw [perform_openCluster, Phrase.rooted_isEmpty, ActorItem.readPrimary]
  dsimp only
  split <;> rfl

theorem perform_addSynonym_eq (state : ActorState) (text : List Char) :
    (addSynonym text).perform state =
      state.settle keepRoots (ActorItem.readSynonym state.current.isSome text) := by
  rw [perform_addSynonym, ActorItem.readSynonym]
  cases isCurrent : state.current with
  | none => rfl
  | some cluster =>
    simp only [Phrase.rooted_isEmpty]
    split
    next => rfl
    next => simp [settle, put, isCurrent]

theorem perform_addCode_eq (state : ActorState) (text : List Char) :
    (addCode text).perform state =
      state.settle keepRoots (ActorItem.readCode state.current.isSome text) := by
  rw [perform_addCode, ActorItem.readCode]
  cases isCurrent : state.current with
  | none => rfl
  | some cluster =>
    cases DatedCode.read text with
    | error skip => rfl
    | ok entry => simp [settle, put, isCurrent, Except.map]

/-- A line either stores the item on it or, if it is refused, leaves everything as it is. -/
theorem handle_eq (state : ActorState) (line : Line) :
    state.handle keepRoots line =
      state.settle keepRoots (ActorItem.read state.current.isSome line.text) := by
  rw [handle, store_eq, ActorItem.read]
  split
  next => exact perform_addCode_eq keepRoots state _
  next =>
    split
    next => exact perform_addSynonym_eq keepRoots state _
    next => exact perform_openCluster_eq keepRoots state _

end ActorState

/-! ### The lines that are read -/

namespace Script

/-- Reading stops at the first line that bears the stop marker. -/
theorem lines_untilStop_eq (script : Script) :
    script.untilStop.lines = script.lines.takeWhile (!isStop ·) := by
  unfold untilStop
  split
  next => rfl
  next noStop =>
    refine (List.takeWhile_eq_self_iff.mpr fun line member => ?_).symm
    rw [List.any_eq_true] at noStop
    simpa using fun stops => noStop ⟨line, member, stops⟩

theorem failedAfter_untilStop (script : Script) :
    script.untilStop.failedAfter =
      if script.lines.any isStop then none else script.failedAfter := by
  unfold untilStop
  split <;> rfl

theorem failedAfter_untilStop_eq_none {script : Script} (complete : script.failedAfter = none) :
    script.untilStop.failedAfter = none := by
  rw [failedAfter_untilStop, complete, ite_self]

end Script

end Codebook
