/-
This file says which lines of an actor file are accepted. A line with a primary phrase always is,
and opens a cluster. Of the others, a synonym or a dated code is accepted if a cluster is open, and
so exactly if it belongs to a group. Main statement: what is accepted on the lines of a file is what
stands on its primary lines and what can be read on the lines of their groups
(`Script.accepted_eq_groups`).
-/

import Codebook.Proofs.ActorClusters
import Codebook.Proofs.SkippedLines

namespace Codebook

open Text

/-! ### Phrases on lines -/

/-- The phrase on a synonym line, if it has a word. Such a line does not start with a tab, and as
far as it counts, it starts with a `+`. -/
def synonym? (line : List Char) : Option (List Char) :=
  let phrase := (splitCode (actorText line).tail).1
  if line.head? = some '\t' ∨ (actorText line).head? ≠ some '+' ∨ Phrase.splitWords phrase = [] then
    none
  else some phrase

/-- The phrase on a primary or a synonym line. -/
def phrase? (line : List Char) : Option (List Char) :=
  ((primary? line).map (·.1)).or (synonym? line)

/-! ### Lines that can be read -/

namespace ActorItem

variable {line : List Char}

theorem read_of_primary {phrase : List Char} {code? : Option String}
    (isPrimary : primary? line = some (phrase, code?)) (isOpen : Bool) :
    read isOpen line = .ok (.primary phrase code?) := by
  simp only [primary?] at isPrimary
  split at isPrimary
  next => cases isPrimary
  next counts =>
    obtain ⟨noTab, noPlus, hasWord⟩ := by simpa only [not_or] using counts
    obtain ⟨rfl, rfl⟩ := Prod.mk.inj (Option.some.inj isPrimary)
    rw [read, if_neg noTab, if_neg noPlus, readPrimary]
    simp [hasWord]

theorem read_of_synonym {phrase : List Char} (isSynonym : synonym? line = some phrase)
    (isOpen : Bool) :
    read isOpen line = if isOpen then .ok (.synonym phrase) else .error .synonymBeforeActor := by
  simp only [synonym?] at isSynonym
  split at isSynonym
  next => cases isSynonym
  next counts =>
    obtain ⟨noTab, isPlus, hasWord⟩ := by simpa only [not_or, not_not] using counts
    obtain rfl := Option.some.inj isSynonym
    rw [read, if_neg noTab, if_pos isPlus, readSynonym]
    cases isOpen <;> simp [hasWord]

/-- What can be read on a line without a phrase is a dated code. -/
theorem exists_code_of_read (noPhrase : phrase? line = none) {isOpen : Bool} {item : ActorItem}
    (isRead : read isOpen line = .ok item) : ∃ entry, item = .code entry := by
  obtain ⟨notPrimary, notSynonym⟩ := Option.or_eq_none_iff.mp noPhrase
  rw [Option.map_eq_none_iff] at notPrimary
  unfold read at isRead
  split at isRead
  next =>
    unfold readCode at isRead
    split at isRead
    next => cases isRead
    next =>
      cases coded : DatedCode.read (trim line) with
      | error skip => rw [coded] at isRead; cases isRead
      | ok entry =>
        rw [coded] at isRead
        exact ⟨entry, (Except.ok.inj isRead).symm⟩
  next noTab =>
    split at isRead
    next isPlus =>
      have noWord : Phrase.splitWords (splitCode (actorText line).tail).1 = [] := by
        simpa [synonym?, noTab, isPlus] using notSynonym
      cases isOpen <;> simp [readSynonym, noWord] at isRead
    next noPlus =>
      have noWord : Phrase.splitWords (splitCode (actorText line)).1 = [] := by
        simpa [primary?, noTab, noPlus] using notPrimary
      simp [readPrimary, noWord] at isRead

end ActorItem

/-! ### Lines that are accepted -/

/-- What can be read on the lines that are stored. -/
def storedOn {Value : Type} (read : Line → Option Value) (lines : List Line) (fates : List Fate) :
    List Value :=
  (lines.zip fates).filterMap fun entry => if entry.2 = .stored then read entry.1 else none

theorem storedOn_unread {Value : Type} (read : Line → Option Value) (lines : List Line) :
    storedOn read lines (lines.map fun _ => .unread) = [] := by
  induction lines with
  | nil => rfl
  | cons line rest inductionHypothesis => exact inductionHypothesis

/-- What is read on an accepted line is something of the primary phrase on it, or else something
that can be read wherever a cluster is open. -/
structure ReadsAccepted {Value : Type} (read : Line → Option Value)
    (own : List Char → Option Value) (other : Line → Option Value) : Prop where
  ofPrimary {line : Line} {phrase : List Char} {code? : Option String}
    (isPrimary : primary? line.text = some (phrase, code?)) : read line = own phrase
  ofOther {line : Line} (notPrimary : primary? line.text = none) (isOpen : Bool) :
    (if (ActorItem.read isOpen line.text).toBool then read line else none) =
      if isOpen then other line else none

/-- A phrase is a primary one, or a synonym. -/
theorem readsAccepted_phrase :
    ReadsAccepted (fun line => phrase? line.text) some fun line => synonym? line.text where
  ofPrimary isPrimary := by simp [phrase?, isPrimary]
  ofOther {line} notPrimary isOpen := by
    have phrase : phrase? line.text = synonym? line.text := by simp [phrase?, notPrimary]
    rw [phrase]
    cases isSynonym : synonym? line.text with
    | none => rw [ite_self, ite_self]
    | some synonym =>
      rw [ActorItem.read_of_synonym isSynonym]
      cases isOpen <;> rfl

namespace ActorState

variable {keepRoots : Bool} {state : ActorState} {complete : List Cluster}
  {current? : Option (String × List DatedCode)} {line : Line}

theorem ofSkip?_handle_eq_stored_iff :
    Fate.ofSkip? (state.handle keepRoots line).2 = .stored ↔
      (ActorItem.read state.current.isSome line.text).toBool = true := by
  rw [handle_eq]
  cases ActorItem.read state.current.isSome line.text with
  | ok item => exact iff_of_true rfl rfl
  | error skip => exact iff_of_false (fun same => by cases same) Bool.false_ne_true

/-- What is accepted is what the open cluster takes, and what stands in the groups. -/
theorem Shows.storedOn_fatesFrom {Value : Type} {read : Line → Option Value}
    {own : List Char → Option Value} {other : Line → Option Value}
    (reads : ReadsAccepted read own other) (lines : List Line)
    (shows : state.Shows complete current?) :
    storedOn read lines (fatesFrom Script.isStop (handle keepRoots) state lines) =
      (if current?.isSome then
          ((lines.takeWhile (!Script.isStop ·)).takeWhile
            fun line => (primary? line.text).isNone).filterMap other
        else []) ++
        (ActorGroup.ofLines (lines.takeWhile (!Script.isStop ·))).flatMap fun group =>
          (own group.phrase).toList ++ group.others.filterMap other := by
  induction lines generalizing state complete current? with
  | nil => simp [storedOn, ActorGroup.ofLines]
  | cons line rest inductionHypothesis =>
    cases stops : Script.isStop line with
    | true =>
      rw [List.takeWhile_cons_of_neg (by simp [stops]), fatesFrom_of_ends stops, storedOn_unread]
      simp [ActorGroup.ofLines]
    | false =>
      have isOpen : state.current.isSome = current?.isSome := by
        rw [shows.current, Option.isSome_map]
      rw [List.takeWhile_cons_of_pos (by simp [stops]), fatesFrom_cons stops, storedOn,
        List.zip_cons_cons, List.filterMap_cons, ← storedOn, ActorGroup.ofLines]
      simp only [ofSkip?_handle_eq_stored_iff, isOpen]
      cases isPrimary : primary? line.text with
      | none =>
        rw [reads.ofOther isPrimary, filterMap_following_cons other isPrimary,
          inductionHypothesis (shows.handle_other isPrimary)]
        cases current? <;> cases other line <;> simp
      | some primary =>
        obtain ⟨phrase, code?⟩ := primary
        have isRead : (ActorItem.read current?.isSome line.text).toBool = true := by
          rw [ActorItem.read_of_primary isPrimary]
          rfl
        rw [if_pos isRead, reads.ofPrimary isPrimary,
          List.takeWhile_cons_of_neg (by simp [isPrimary]), List.filterMap_nil, ite_self,
          inductionHypothesis (shows.handle_primary isPrimary)]
        cases owned : own phrase <;> simp [owned]

end ActorState

namespace Script

/-- What can be read on the lines that are accepted when a file is compiled behind others. -/
def accepted {Value : Type} (read : Line → Option Value) (keepRoots : Bool)
    (earlier : ActorDictionary) (script : Script) : List Value :=
  storedOn read script.lines
    (fatesFrom isStop (ActorState.handle keepRoots) ⟨earlier, none⟩ script.lines)

/-- What is accepted stands in the groups, whatever has been compiled before. -/
theorem accepted_eq_groups {Value : Type} {read : Line → Option Value}
    {own : List Char → Option Value} {other : Line → Option Value}
    (reads : ReadsAccepted read own other) (keepRoots : Bool) (earlier : ActorDictionary)
    (script : Script) :
    script.accepted read keepRoots earlier =
      script.groups.flatMap fun group =>
        (own group.phrase).toList ++ group.others.filterMap other := by
  have shows := ActorState.shows_of_closed earlier
  rw [accepted, shows.storedOn_fatesFrom reads, ← lines_untilStop_eq, ofLines_untilStop,
    Option.isSome_none, if_neg Bool.false_ne_true, List.nil_append]

end Script

end Codebook
