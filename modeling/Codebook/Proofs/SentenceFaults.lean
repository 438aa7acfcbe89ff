/-
This file says when splitting a text fails. A walk breaks off at a full stop that may end a sentence
if the last white space before it, in the text that remains, takes more than one byte, and nowhere
else (`Sentences.Cursor.facesWideSpace_iff`). The same full stops can be found in the whole text
(`Sentences.IsFaulty`), where the sentence that each of them stands in starts behind the last split
point before it. Main statement: both views say of every text whether it can be split, and a text
whose white space is all ASCII can (`Sentences.split_fails_iff`).
-/

import Codebook.Proofs.SentenceAlone
import Codebook.Proofs.SentenceSplits

namespace Codebook.Sentences

open Text

/-! ### Facing a wide space -/

/-- Whether the mark that a cursor finds next is a full stop, and the last white space before it in
the text that remains takes more than one byte. -/
def Cursor.FacesWideSpace (cursor : Cursor) : Prop :=
  ∃ before behind found, nextMatch? cursor.offset 0 cursor.rest = some found ∧
    cursor.rest = before ++ '.' :: behind ∧ found.start = byteCount before ∧
    IsBehindWideSpace before

/-- Whether a full stop stands at position `i` that may end a sentence, and the last white space
before it in the sentence that starts at `start` takes more than one byte. -/
def IsFaulty (text : List Char) (start i : Nat) : Prop :=
  IsCandidate text i ∧ text[i]? = some '.' ∧ IsBehindWideSpace (span text start i)

instance (text : List Char) (start i : Nat) : Decidable (IsFaulty text start i) :=
  inferInstanceAs (Decidable (_ ∧ _))

/-- Two texts that a text starts with are the same if they fill as many bytes. -/
theorem eq_of_byteCount {front back other behind : List Char}
    (same : front ++ back = other ++ behind) (count : byteCount front = byteCount other) :
    front = other ∧ back = behind := by
  have taken := takeBytes?_byteCount front back
  rw [same, count, takeBytes?_byteCount, Option.some.injEq, Prod.mk.injEq] at taken
  exact ⟨taken.1.symm, taken.2.symm⟩

/-- Where a mark is judged, it is no full stop behind a wide space. -/
theorem not_wide_of_endsWith {mark : Char} {backwards : List Char} {answer : Bool}
    (ends : endsWith mark backwards = .ok answer) :
    ¬ (mark = '.' ∧ IsBehindWideSpace backwards.reverse) := by
  intro wide
  have fails : endsWith mark backwards = .error .wideSpaceBeforeWord :=
    endsWith_eq_error_iff.mpr wide
  exact nomatch ends.symm.trans fails

/-- A turn fails exactly if its cursor faces a wide space. -/
theorem Cursor.facesWideSpace_iff {text : List Char} {k : Nat} (inside : k ≤ text.length) :
    (atChar text k).FacesWideSpace ↔ (atChar text k).turn = .error .word := by
  have search := nextMatch?_eq text inside
  cases found : nextCandidate? text k with
  | none =>
    rw [found, Option.map_none] at search
    rw [turn_of_none inside found]
    refine iff_of_false ?_ fun same => (nomatch same)
    rintro ⟨before, behind, match?, isMatch, -⟩
    exact nomatch search.symm.trans isMatch
  | some i =>
    have bounded := (nextCandidate?_bounds found).2
    have here := List.getElem?_eq_getElem bounded
    have shape : text = text.take i ++ text[i] :: text.drop (i + 1) := by simp
    rw [found, Option.map_some] at search
    have faces : (atChar text k).FacesWideSpace ↔
        text[i] = '.' ∧ IsBehindWideSpace (text.take i) := by
      constructor
      · rintro ⟨before, behind, first, isFirst, split, atMark, wide⟩
        obtain rfl := Option.some.inj (search.symm.trans isFirst)
        obtain ⟨same, tail⟩ := eq_of_byteCount (shape.symm.trans split) atMark
        exact ⟨(List.cons.inj tail).1, same ▸ wide⟩
      · rintro ⟨stop, wide⟩
        exact ⟨text.take i, text.drop (i + 1), _, search, stop ▸ shape, rfl, wide⟩
    rw [faces, turn_of_some inside found here]
    cases ends : endsWith text[i] (text.take i).reverse with
    | error fault =>
      rw [endsWith_eq_error_iff, List.reverse_reverse] at ends
      exact iff_of_true ends rfl
    | ok answer =>
      have narrow := not_wide_of_endsWith ends
      rw [List.reverse_reverse] at narrow
      refine iff_of_false narrow ?_
      cases answer <;> exact fun same => (nomatch same)

open Cursor in
/-- A walk breaks off exactly if it leads to a cursor that faces a wide space. -/
theorem Walk.breaksOff_iff {text : List Char} {sentences : List (List Char)}
    {fault? : Option Slice} (walk : Walk text sentences fault?) :
    fault? = some .word ↔
      ∃ passed cursor, Leads (atChar text 0) passed cursor ∧ cursor.FacesWideSpace := by
  constructor
  · rintro rfl
    cases walk with
    | breaksOff leads turn =>
      obtain ⟨-, rest, j, rfl, inside, -⟩ := leads.reached (Nat.zero_le _) (.zero text)
      exact ⟨_, _, leads, (facesWideSpace_iff inside).mpr turn⟩
  · rintro ⟨passed, cursor, leads, faces⟩
    obtain ⟨-, rest, j, rfl, inside, -⟩ := leads.reached (Nat.zero_le _) (.zero text)
    exact (walk.unique (.breaksOff leads ((facesWideSpace_iff inside).mp faces))).2.symm

/-! ### Faults by position -/

/-- Whether one of the `count` positions from `i` on is faulty in the sentence it stands in, when
the current sentence starts at `start`. -/
def HasFault (text : List Char) (start i count : Nat) : Prop :=
  ∃ j ∈ List.range' i count,
    IsFaulty text (sentenceStart text start (splitsAmong text start (List.range' i count)) j) j

theorem not_hasFault_zero (text : List Char) (start i : Nat) : ¬ HasFault text start i 0 := by
  rintro ⟨j, member, -⟩
  cases member

/-- A fault is at the next position or behind it, where the next sentence has started if the text is
split there. -/
theorem hasFault_succ {text : List Char} {start i count : Nat} :
    HasFault text start i (count + 1) ↔ IsFaulty text start i ∨
      HasFault text
        (if IsCandidate text i ∧ ¬ IsRefused text start i then openingAfter text i else start)
        (i + 1) count := by
  have fromHere (start : Nat) :
      ∀ split ∈ splitsAmong text start (List.range' (i + 1) count), i ≤ split := by
    intro split member
    have position := List.mem_range'_1.mp ((splitsAmong_sublist _ _ _).subset member)
    omega
  have behind {j : Nat} (member : j ∈ List.range' (i + 1) count) : i < j :=
    (List.mem_range'_1.mp member).1
  rw [HasFault, HasFault, List.range'_succ, List.exists_mem_cons_iff, splitsAmong]
  split
  next accepted =>
    have later := List.forall_mem_cons.mpr ⟨Nat.le_refl i, fromHere (openingAfter text i)⟩
    rw [sentenceStart_of_le later]
    refine or_congr_right (exists_congr fun j => and_congr_right fun member => ?_)
    rw [sentenceStart_cons _ (behind member)]
  next passed => rw [sentenceStart_of_le (fromHere start)]

theorem hasFault_pass {text : List Char} {start i count : Nat} (passed : ¬ IsCandidate text i) :
    HasFault text start i (count + 1) ↔ HasFault text start (i + 1) count := by
  rw [hasFault_succ, or_iff_right fun faulty => passed faulty.1,
    if_neg fun accepted => passed accepted.1]

theorem Stands.isFaulty_iff {text rest backwards : List Char} {start i : Nat} {c : Char}
    (stands : Stands text start i (c :: rest) (.inside backwards)) :
    IsFaulty text start i ↔
      (isTerminal c && opensNext rest) = true ∧ c = '.' ∧ IsBehindWideSpace backwards.reverse := by
  rw [IsFaulty, stands.isCandidate_iff]
  obtain ⟨front, shape, rfl, rfl, -⟩ := stands
  have here : text[front.length + backwards.length]? = some c := by
    rw [shape, ← List.append_assoc]
    simp
  rw [here, span_inside shape, Option.some.injEq]

/-- The rest of a text cannot be split exactly if a position in it is faulty. -/
theorem splitFrom_eq_error_iff {text : List Char} {done : List (List Char)} {place : Place}
    {rest : List Char} {start i : Nat} (stands : Stands text start i rest place) :
    (∃ fault, splitFrom done place rest = .error fault) ↔ HasFault text start i rest.length := by
  fun_induction splitFrom done place rest generalizing start i with
  | case1 done backwards =>
    exact iff_of_false (by simp) (not_hasFault_zero text start i)
  | case2 done =>
    exact iff_of_false (by simp) (not_hasFault_zero text start i)
  | case3 done backwards c rest candidate fault ends =>
    refine iff_of_true ⟨fault, rfl⟩ (hasFault_succ.mpr (.inl ?_))
    exact stands.isFaulty_iff.mpr ⟨candidate, endsWith_eq_error_iff.mp ends⟩
  | case4 done backwards c rest candidate ends inductionHypothesis =>
    have sound := mt (fun faulty => (stands.isFaulty_iff.mp faulty).2)
      (not_wide_of_endsWith ends)
    rw [inductionHypothesis stands.read, List.length_cons, hasFault_succ, or_iff_right sound,
      if_neg]
    rintro ⟨-, accepted⟩
    obtain ⟨front, shape, rfl, rfl, edge⟩ := stands
    exact Bool.false_ne_true ((endsWith_iff shape edge ends).mpr accepted)
  | case5 done backwards c rest candidate ends inductionHypothesis =>
    have sound := mt (fun faulty => (stands.isFaulty_iff.mp faulty).2)
      (not_wide_of_endsWith ends)
    have isCandidate := stands.isCandidate_iff.mpr candidate
    rw [inductionHypothesis (stands.split (Bool.and_eq_true_iff.mp candidate).2),
      List.length_cons, hasFault_succ, or_iff_right sound, if_pos]
    obtain ⟨front, shape, rfl, rfl, edge⟩ := stands
    exact ⟨isCandidate, (endsWith_iff shape edge ends).mp rfl⟩
  | case6 done backwards c rest candidate inductionHypothesis =>
    have passed := mt stands.isCandidate_iff.mp candidate
    rw [inductionHypothesis stands.read, List.length_cons, hasFault_pass passed]
  | case7 done c rest space inductionHypothesis =>
    have passed := not_isCandidate stands.getElem?_between (isTerminal_of_isSpace space)
    rw [inductionHypothesis (stands.skip space), List.length_cons, hasFault_pass passed]
  | case8 done c rest space inductionHypothesis =>
    obtain ⟨next, opening⟩ := stands.start space
    have passed := not_isCandidate stands.getElem?_between (isTerminal_of_isOpening opening)
    rw [inductionHypothesis next, List.length_cons, hasFault_pass passed]

/-- A text cannot be split exactly if a full stop in it is faulty in its sentence. -/
theorem all_eq_error_iff {text : List Char} :
    (∃ fault, all text = .error fault) ↔
      ∃ i, IsFaulty text (sentenceStart text 0 (splitPoints text) i) i := by
  have atStart : Stands text 0 0 text (.inside []) := ⟨[], rfl, rfl, rfl, by simp⟩
  rw [all, splitFrom_eq_error_iff atStart, HasFault, splitPoints, List.range_eq_range']
  refine exists_congr fun i => and_iff_right_of_imp fun faulty => ?_
  have inside := lt_of_isCandidate faulty.1
  exact List.mem_range'_1.mpr (by omega)

/-- White space in ASCII takes one byte. -/
theorem not_isFaulty_of_ascii {text : List Char}
    (ascii : ∀ c ∈ text, isSpace c = true → c.toNat < 128) (start i : Nat) :
    ¬ IsFaulty text start i := by
  rintro ⟨-, -, space, found, wide⟩
  have inSpan := List.mem_reverse.mp (List.mem_of_find?_eq_some found)
  have inText := List.mem_of_mem_take (List.mem_of_mem_drop inSpan)
  have narrow : space.toNat < 128 := ascii space inText (List.find?_some found)
  have one : space.utf8Size = 1 := by
    rw [Char.utf8Size_eq_one_iff]
    exact Nat.le_of_lt_succ narrow
  omega

/-- Through every text there is one walk. It breaks off only at the word before a full stop, and
then the text cannot be split; else the sentences of the walk that the bounds keep are those of the
text. It breaks off exactly if it leads to a full stop that may end a sentence and that has a wide
space for its last white space in the text that remains, or, read in the whole text, if a full stop
has one in its sentence. So it does not if all white space is ASCII. -/
theorem split_fails_iff (bounds : LengthBounds) (text : List Char) :
    ∃ sentences fault?, Walk text sentences fault? ∧
      (∀ others other?, Walk text others other? → others = sentences ∧ other? = fault?) ∧
      (fault? = none ∧ split bounds text = .ok (sentences.filter bounds.keeps) ∨
        fault? = some .word ∧ split bounds text = .error .wideSpaceBeforeWord) ∧
      (fault? = some .word ↔ ∃ passed cursor,
        Cursor.Leads (.atChar text 0) passed cursor ∧ cursor.FacesWideSpace) ∧
      (fault? = some .word ↔ ∃ i, IsFaulty text (sentenceStart text 0 (splitPoints text) i) i) ∧
      ((∀ c ∈ text, isSpace c = true → c.toNat < 128) → fault? = none) := by
  have through := exists_walk text
  have byPosition := @all_eq_error_iff text
  rw [split]
  cases whole : all text with
  | ok sentences =>
    rw [whole] at through byPosition
    refine ⟨sentences, none, through, fun _ _ => through.unique, .inl ⟨rfl, rfl⟩,
      through.breaksOff_iff, ?_, fun _ => rfl⟩
    rw [← byPosition]
    exact iff_of_false (by simp) (by simp)
  | error fault =>
    rw [whole] at through byPosition
    obtain ⟨passed, walk⟩ := through
    have faulty := byPosition.mp ⟨fault, rfl⟩
    refine ⟨passed, some .word, walk, fun _ _ => walk.unique, .inr ⟨rfl, rfl⟩,
      walk.breaksOff_iff, iff_of_true rfl faulty, fun ascii => ?_⟩
    obtain ⟨i, faultyAt⟩ := faulty
    exact absurd faultyAt (not_isFaulty_of_ascii ascii _ i)

example : IsFaulty dayText 0 9 := by decide +kernel

end Codebook.Sentences
