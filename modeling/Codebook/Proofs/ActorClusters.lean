/-
This file says which clusters an actor file holds. Its lines are cut into groups, one for each
primary line, and a group is one cluster: the code on the primary line comes first, and behind it
the dated codes on the lines up to the next primary line. Main statement: compiling line by line,
with one cluster kept open, yields exactly the clusters of the groups
(`ActorDictionary.clusters_compileInto`).
-/

import Codebook.Proofs.ActorLines
import Mathlib.Data.List.Infix

namespace Codebook

open Text

/-! ### The groups of a file -/

/-- The phrase and the code on a primary line. Such a line does not start with a tab, nor, as far as
it counts, with a `+`, and there is a word in its phrase. -/
def primary? (line : List Char) : Option (List Char × Option String) :=
  let (phrase, code?) := splitCode (actorText line)
  if line.head? = some '\t' ∨ (actorText line).head? = some '+' ∨ Phrase.splitWords phrase = [] then
    none
  else some (phrase, code?)

/-- The dated code on a line that starts with a tab, if it can be read. -/
def datedCode? (line : List Char) : Option DatedCode :=
  if line.head? = some '\t' then (DatedCode.read (trim line)).toOption else none

/-- A primary line, and the lines behind it up to the next one. -/
structure ActorGroup where
  phrase : List Char
  code? : Option String
  others : List Line
deriving DecidableEq, Repr

namespace ActorGroup

/-- The groups of the given lines. Lines before the first primary line belong to none. -/
def ofLines : List Line → List ActorGroup
  | [] => []
  | line :: rest =>
    match primary? line.text with
    | none => ofLines rest
    | some (phrase, code?) =>
      ⟨phrase, code?, rest.takeWhile fun other => (primary? other.text).isNone⟩ :: ofLines rest

/-- The code of a primary line has no period. -/
def ownCode (code? : Option String) : List DatedCode :=
  (code?.map (DatedCode.mk .always)).toList

/-- The cluster a group stands for. -/
def cluster (keepRoots : Bool) (group : ActorGroup) : Cluster where
  entries := ownCode group.code? ++ group.others.filterMap fun line => datedCode? line.text
  root := if keepRoots then some (String.ofList group.phrase) else none

end ActorGroup

/-! ### One line -/

namespace ActorState

variable (keepRoots : Bool)

/-- The clusters of a state: those that are complete, and the phrase and the codes so far of the
open one, which is the last of the dictionary. -/
structure Shows (state : ActorState) (complete : List Cluster)
    (current? : Option (String × List DatedCode)) : Prop where
  clusters : state.dictionary.clusters.toList =
    complete ++ (current?.map fun current => ⟨current.2, none⟩).toList
  current : state.current = current?.map fun current => ⟨complete.length, current.1⟩

/-- The open cluster as it is when it is completed. -/
def completed (current? : Option (String × List DatedCode)) : List Cluster :=
  (current?.map fun current => ⟨current.2, if keepRoots then some current.1 else none⟩).toList

variable {keepRoots} {state : ActorState} {complete : List Cluster}
  {current? : Option (String × List DatedCode)}

theorem modify_last {Value : Type} (change : Value → Value) (front : List Value) (last : Value) :
    (front ++ [last]).modify front.length change = front ++ [change last] := by
  induction front with
  | nil => rfl
  | cons first rest inductionHypothesis => simp [inductionHypothesis]

theorem Shows.close (shows : state.Shows complete current?) :
    (state.close keepRoots).dictionary.clusters.toList =
      complete ++ completed keepRoots current? := by
  cases current? with
  | none =>
    have noCurrent : state.current = none := shows.current
    simpa [ActorState.close, noCurrent, completed] using shows.clusters
  | some current =>
    have isCurrent : state.current = some ⟨complete.length, current.1⟩ := shows.current
    have isLast : state.dictionary.clusters.toList = complete ++ [⟨current.2, none⟩] :=
      shows.clusters
    simp only [ActorState.close, isCurrent, Array.toList_modify, isLast, modify_last, completed,
      Option.map_some, Option.toList_some]
    cases keepRoots <;> rfl

/-- A primary line completes the open cluster and opens one with its own code. -/
theorem Shows.handle_primary (shows : state.Shows complete current?) {line : Line}
    {phrase : List Char} {code? : Option String}
    (isPrimary : primary? line.text = some (phrase, code?)) :
    (state.handle keepRoots line).1.Shows (complete ++ completed keepRoots current?)
      (some (String.ofList phrase, ActorGroup.ownCode code?)) := by
  simp only [primary?] at isPrimary
  split at isPrimary
  next => cases isPrimary
  next counts =>
    obtain ⟨noTab, noPlus, hasWord⟩ := by simpa only [not_or] using counts
    obtain ⟨rfl, rfl⟩ := Prod.mk.inj (Option.some.inj isPrimary)
    have closed : (state.close keepRoots).dictionary.clusters.toList =
        complete ++ completed keepRoots current? := shows.close
    have size := congrArg List.length closed
    rw [Array.length_toList] at size
    rw [handle_eq, ActorItem.read, if_neg noTab, if_neg noPlus, ActorItem.readPrimary]
    simp only [List.isEmpty_iff, hasWord, if_false, settle, put]
    refine ⟨?_, by simp [size]⟩
    simp [closed, ActorGroup.ownCode]

/-- A dated code that can be read is added to the open cluster. -/
theorem Shows.settle_readCode (shows : state.Shows complete current?) (text : List Char) :
    (state.settle keepRoots (ActorItem.readCode state.current.isSome text)).1.Shows complete
      (current?.map fun current =>
        (current.1, current.2 ++ (DatedCode.read text).toOption.toList)) := by
  cases current? with
  | none =>
    have noCurrent : state.current = none := shows.current
    rw [ActorItem.readCode, noCurrent]
    exact shows
  | some current =>
    have isCurrent : state.current = some ⟨complete.length, current.1⟩ := shows.current
    have isLast : state.dictionary.clusters.toList = complete ++ [⟨current.2, none⟩] :=
      shows.clusters
    rw [ActorItem.readCode, isCurrent, Option.map_some]
    cases DatedCode.read text with
    | error skip =>
      show state.Shows complete (some (current.1, current.2 ++ []))
      rwa [List.append_nil]
    | ok entry =>
      show (state.put keepRoots (.code entry)).Shows complete _
      simp only [put, isCurrent, Option.elim_some]
      refine ⟨?_, isCurrent⟩
      show (state.dictionary.clusters.modify complete.length _).toList = _
      rw [Array.toList_modify, isLast, modify_last]
      rfl

/-- A synonym belongs to the open cluster, which it leaves as it is. -/
theorem Shows.settle_readSynonym (shows : state.Shows complete current?) (text : List Char) :
    (state.settle keepRoots (ActorItem.readSynonym state.current.isSome text)).1.Shows complete
      current? := by
  unfold ActorItem.readSynonym
  dsimp only
  split
  next => exact shows
  next =>
    split
    next => exact shows
    next =>
      simp only [settle, put]
      cases isCurrent : state.current with
      | none => exact shows
      | some current => exact ⟨shows.clusters, shows.current⟩

/-- Any other line may add a code to the open cluster, and changes no cluster besides. -/
theorem Shows.handle_other (shows : state.Shows complete current?) {line : Line}
    (notPrimary : primary? line.text = none) :
    (state.handle keepRoots line).1.Shows complete
      (current?.map fun current => (current.1, current.2 ++ (datedCode? line.text).toList)) := by
  rw [handle_eq, ActorItem.read]
  by_cases isTab : line.text.head? = some '\t'
  · rw [if_pos isTab, datedCode?, if_pos isTab]
    exact shows.settle_readCode (trim line.text)
  · have noCode : (current?.map fun current =>
        (current.1, current.2 ++ (datedCode? line.text).toList)) = current? := by
      simp [datedCode?, isTab]
    rw [if_neg isTab, noCode]
    by_cases isPlus : (actorText line.text).head? = some '+'
    · rw [if_pos isPlus]
      exact shows.settle_readSynonym _
    · have noWord : (Phrase.splitWords (splitCode (actorText line.text)).1).isEmpty := by
        simpa [primary?, isTab, isPlus] using notPrimary
      rw [if_neg isPlus, ActorItem.readPrimary]
      simp only [noWord]
      exact shows

/-! ### All lines -/

/-- What is read on the lines up to the next primary line starts with what is read on the first. -/
theorem filterMap_following_cons {Value : Type} (read : Line → Option Value) {line : Line}
    (notPrimary : primary? line.text = none) (rest : List Line) :
    ((line :: rest).takeWhile fun other => (primary? other.text).isNone).filterMap read =
      (read line).toList ++
        (rest.takeWhile fun other => (primary? other.text).isNone).filterMap read := by
  simp only [List.takeWhile_cons, notPrimary, Option.isNone_none, if_true, List.filterMap_cons]
  cases read line <;> rfl

/-- The dated codes on the lines up to the next primary line. -/
def followingCodes (lines : List Line) : List DatedCode :=
  (lines.takeWhile fun line => (primary? line.text).isNone).filterMap fun line =>
    datedCode? line.text

theorem followingCodes_cons {line : Line} (notPrimary : primary? line.text = none)
    (rest : List Line) :
    followingCodes (line :: rest) = (datedCode? line.text).toList ++ followingCodes rest :=
  filterMap_following_cons (fun line => datedCode? line.text) notPrimary rest

/-- The open cluster takes the dated codes up to the next primary line; from there on, the clusters
are those of the groups. -/
theorem Shows.foldl_handle (lines : List Line) (shows : state.Shows complete current?) :
    ((lines.foldl (fun state line => (state.handle keepRoots line).1) state).close
        keepRoots).dictionary.clusters.toList =
      complete ++
        completed keepRoots (current?.map fun current =>
          (current.1, current.2 ++ followingCodes lines)) ++
        (ActorGroup.ofLines lines).map (·.cluster keepRoots) := by
  induction lines generalizing state complete current? with
  | nil => simpa [ActorGroup.ofLines, followingCodes] using shows.close
  | cons line rest inductionHypothesis =>
    rw [List.foldl_cons, ActorGroup.ofLines]
    cases isPrimary : primary? line.text with
    | none =>
      rw [inductionHypothesis (shows.handle_other isPrimary), followingCodes_cons isPrimary]
      cases current? <;> simp
    | some own =>
      have noCodes : followingCodes (line :: rest) = [] := by simp [followingCodes, isPrimary]
      rw [inductionHypothesis (shows.handle_primary isPrimary), noCodes]
      simp only [List.append_nil, Option.map_id', List.append_assoc]
      rfl

/-- A state without an open cluster shows the clusters of its dictionary. -/
theorem shows_of_closed (dictionary : ActorDictionary) :
    Shows ⟨dictionary, none⟩ dictionary.clusters.toList none :=
  ⟨by simp, rfl⟩

end ActorState

/-! ### Whole files -/

/-- The stop marker may stand anywhere on its line. -/
theorem Script.lines_untilStop (script : Script) :
    script.untilStop.lines = script.lines.takeWhile fun line => ¬ stopMark <:+: line.text := by
  have goesOn (line : Line) : (!isStop line) = decide (¬ stopMark <:+: line.text) := by
    rw [isStop, Bool.eq_iff_iff]
    simp [← isSome_cutAt?]
  rw [lines_untilStop_eq, ← funext goesOn]

/-- The groups of a file, up to the stop marker. -/
def Script.groups (script : Script) : List ActorGroup :=
  ActorGroup.ofLines (script.lines.takeWhile fun line => ¬ stopMark <:+: line.text)

theorem Script.ofLines_untilStop (script : Script) :
    ActorGroup.ofLines script.untilStop.lines = script.groups := by
  rw [lines_untilStop, groups]

namespace ActorDictionary

/-- A file adds one cluster for each of its groups. -/
theorem clusters_compileInto (keepRoots : Bool) (earlier : ActorDictionary) (file : String)
    (script : Script) (complete : (earlier.compileInto keepRoots file script).failedAfter = none) :
    (earlier.compileInto keepRoots file script).dictionary.clusters.toList =
      earlier.clusters.toList ++
        (ActorGroup.ofLines (script.lines.takeWhile fun line => ¬ stopMark <:+: line.text)).map
          (·.cluster keepRoots) := by
  have notFailed : script.untilStop.failedAfter = none := complete
  have shows := ActorState.shows_of_closed earlier
  simp only [compileInto, notFailed, handleLines_fst, Option.isNone_none, if_true,
    shows.foldl_handle, Script.lines_untilStop]
  simp [ActorState.completed]

/-- The clusters of a file that does not fail are those of its groups up to the stop marker, in
order, each with the code of its primary line and the dated codes behind it. -/
theorem clusters_eq_groups (keepRoots : Bool) (file : String) (script : Script)
    (complete : (empty.compileInto keepRoots file script).failedAfter = none) :
    (empty.compileInto keepRoots file script).dictionary.clusters.toList =
      (ActorGroup.ofLines (script.lines.takeWhile fun line => ¬ stopMark <:+: line.text)).map
        (·.cluster keepRoots) := by
  simpa [empty] using clusters_compileInto keepRoots empty file script complete

/-- A refused primary line leaves the open cluster open, and the last cluster gets its root at the
stop marker as well. -/
def karzaiScript : Script where
  lines := List.mapIdx (fun index text => ⟨index + 1, text.toList⟩)
    ["\t[EARLY]", "HAMID_KARZAI_ [AFGMIL]; annotation", "[BROKEN]", "\t[AFGGOV 791227-861124]",
      "+KARZAI", "\t[AFGELI ~soon]", "QADIR", "\t[AFGELI]", "---STOP---", "LATER [X]"]
  failedAfter := some 12

theorem clusters_karzaiScript :
    (empty.compileInto true "karzai" karzaiScript).failedAfter = none ∧
      (empty.compileInto true "karzai" karzaiScript).dictionary.clusters.toList =
        [⟨[⟨.always, "AFGMIL"⟩, ⟨.between 138422 140946, "AFGGOV"⟩], some "HAMID_KARZAI_"⟩,
          ⟨[⟨.always, "AFGELI"⟩], some "QADIR"⟩] := by
  have complete : (empty.compileInto true "karzai" karzaiScript).failedAfter = none := by
    decide +kernel
  refine ⟨complete, (clusters_eq_groups true "karzai" karzaiScript complete).trans ?_⟩
  decide +kernel

end ActorDictionary

end Codebook
