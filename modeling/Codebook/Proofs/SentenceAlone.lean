/-
This file says that splitting a sentence again changes nothing. A text is whole if it refuses every
mark in it that may end a sentence. Such a text is its only sentence (`Sentences.all_of_isWhole`),
and a walk passes whole sentences only, since a mark is judged by what stands before it in its
sentence (`Sentences.Cursor.Leads.reached`). Main statement: every sentence of a text that bounds
keep, also if the walk through the text breaks off behind it, gives itself when it is split alone
(`Sentences.split_alone`).
-/

import Codebook.Proofs.SentenceCursor

namespace Codebook.Sentences

open Text

/-! ### Whole texts -/

/-- Whether every mark before position `k` that may end a sentence is refused by the text up to
it. -/
def RefusesBefore (text : List Char) (k : Nat) : Prop :=
  ∀ j mark, j < k → text[j]? = some mark → IsCandidate text j →
    endsWith mark (text.take j).reverse = .ok false

/-- Whether a text refuses every mark in it that may end a sentence. -/
def IsWhole (text : List Char) : Prop :=
  RefusesBefore text text.length

namespace RefusesBefore

variable {text : List Char} {k i : Nat}

theorem zero (text : List Char) : RefusesBefore text 0 :=
  fun _ _ before => absurd before (Nat.not_lt_zero _)

/-- No mark is passed over on the way to the next candidate. -/
theorem upTo (refuses : RefusesBefore text k) (found : nextCandidate? text k = some i) :
    RefusesBefore text i := by
  intro j mark before here candidate
  by_cases passed : j < k
  · exact refuses j mark passed here candidate
  · have first := (List.find?_range'_eq_some.mp found).2.2 j (not_lt.mp passed) before
    exact absurd candidate (by simpa using first)

theorem succ {mark : Char} (refuses : RefusesBefore text i) (here : text[i]? = some mark)
    (ends : endsWith mark (text.take i).reverse = .ok false) : RefusesBefore text (i + 1) := by
  intro j other before otherHere candidate
  rcases Nat.lt_succ_iff_lt_or_eq.mp before with earlier | rfl
  · exact refuses j other earlier otherHere candidate
  · obtain rfl := Option.some.inj (here.symm.trans otherHere)
    exact ends

theorem isWhole (refuses : RefusesBefore text k) (missing : nextCandidate? text k = none) :
    IsWhole text := by
  intro j mark inside here candidate
  by_cases passed : j < k
  · exact refuses j mark passed here candidate
  · have none := List.find?_range'_eq_none.mp missing j (not_lt.mp passed) (by omega)
    exact absurd candidate (by simpa using none)

end RefusesBefore

/-- A whole text is its only sentence. -/
theorem all_of_isWhole {text : List Char} (whole : IsWhole text) : all text = .ok [text] := by
  suffices fromAnywhere : ∀ offset, search text offset = .ok [text] by
    rw [all_eq_search, fromAnywhere]
  intro offset
  fun_induction search text offset with
  | case1 text offset missing => rfl
  | case2 text offset i found inside fault ends =>
    have refused := whole i _ inside (List.getElem?_eq_getElem inside)
      (isCandidate_of_nextCandidate? found)
    cases ends.symm.trans refused
  | case3 text offset i found inside ends inductionHypothesis => exact inductionHypothesis whole
  | case4 text offset i found inside ends inductionHypothesis =>
    have refused := whole i _ inside (List.getElem?_eq_getElem inside)
      (isCandidate_of_nextCandidate? found)
    cases ends.symm.trans refused

/-! ### Sentences are whole -/

theorem opensNext_append {rest : List Char} (opens : opensNext rest = true) (more : List Char) :
    opensNext (rest ++ more) = true := by
  cases rest with
  | nil => cases opens
  | cons c rest =>
    obtain ⟨space, opening⟩ := Bool.and_eq_true_iff.mp opens
    refine Bool.and_eq_true_iff.mpr ⟨space, ?_⟩
    show ((rest ++ more).dropWhile isSpace).head?.any isOpening = true
    rw [List.dropWhile_append]
    cases tail : rest.dropWhile isSpace with
    | nil => simp [tail] at opening
    | cons first others => simpa [tail] using opening

/-- A mark that may end a sentence may do so whatever comes behind. -/
theorem isCandidate_append {part : List Char} {j : Nat} (candidate : IsCandidate part j)
    (more : List Char) : IsCandidate (part ++ more) j := by
  obtain ⟨mark, here, -⟩ := (Option.any_eq_true ..).mp candidate.1
  obtain ⟨inside, rfl⟩ := List.getElem?_eq_some_iff.mp here
  have shape : part = part.take j ++ part[j] :: part.drop (j + 1) := by simp
  have whole : part ++ more = part.take j ++ part[j] :: (part.drop (j + 1) ++ more) := by
    rw [← List.cons_append, ← List.append_assoc, ← shape]
  have reading := isCandidate_iff shape
  have wholeReading := isCandidate_iff whole
  rw [List.length_take_of_le (Nat.le_of_lt inside)] at reading wholeReading
  obtain ⟨terminal, opens⟩ := Bool.and_eq_true_iff.mp (reading.mp candidate)
  exact wholeReading.mpr (Bool.and_eq_true_iff.mpr ⟨terminal, opensNext_append opens more⟩)

/-- Two characters at least stand behind such a mark. -/
theorem lt_of_isCandidate {text : List Char} {j : Nat} (candidate : IsCandidate text j) :
    j + 2 < text.length := by
  obtain ⟨-, space, opening⟩ := candidate
  obtain ⟨c, here, -⟩ := (Option.any_eq_true ..).mp opening
  have inside := (List.getElem?_eq_some_iff.mp here).1
  omega

/-- A sentence is whole if its text refuses the marks before the one it ends with. That one has only
one character behind it now, and the others are judged as before. -/
theorem isWhole_sentence {text : List Char} {i : Nat} (refuses : RefusesBefore text i) :
    IsWhole (text.take (i + 2)) := by
  intro j mark _ here candidate
  have inside := lt_of_isCandidate candidate
  rw [List.length_take] at inside
  have inText := isCandidate_append candidate (text.drop (i + 2))
  rw [List.take_append_drop] at inText
  rw [List.getElem?_take_of_lt (by omega)] at here
  rw [List.take_take, Nat.min_eq_left (by omega)]
  exact refuses j mark (by omega) here inText

open Cursor

/-- The sentences that a walk has passed are whole, and what remains of the text has refused all
marks so far. -/
theorem Cursor.Leads.reached {text : List Char} {k : Nat} {last : Cursor}
    {sentences : List (List Char)} (leads : Leads (atChar text k) sentences last)
    (inside : k ≤ text.length) (refuses : RefusesBefore text k) :
    (∀ sentence ∈ sentences, IsWhole sentence) ∧
      ∃ rest j, last = atChar rest j ∧ j ≤ rest.length ∧ RefusesBefore rest j := by
  generalize start : atChar text k = cursor at leads
  induction leads generalizing text k with
  | here cursor => exact ⟨by simp, text, k, start.symm, inside, refuses⟩
  | refused turn later inductionHypothesis =>
    subst start
    have view := turnFrom inside
    rw [turn] at view
    cases view with
    | refused found here ends =>
      exact inductionHypothesis (nextCandidate?_bounds found).2
        ((refuses.upTo found).succ here ends) rfl
  | sentence turn later inductionHypothesis =>
    subst start
    have view := turnFrom inside
    rw [turn] at view
    cases view with
    | sentence found here ends =>
      obtain ⟨passed, remaining⟩ :=
        inductionHypothesis (Nat.zero_le _) (.zero _) rfl
      exact ⟨List.forall_mem_cons.mpr ⟨isWhole_sentence (refuses.upTo found), passed⟩,
        remaining⟩

/-- All sentences of a walk are whole, whether it ends with the text or breaks off. -/
theorem Walk.isWhole {text : List Char} {sentences : List (List Char)} {fault? : Option Slice}
    (walk : Walk text sentences fault?) : ∀ sentence ∈ sentences, IsWhole sentence := by
  cases walk with
  | ends leads turn =>
    obtain ⟨passed, rest, j, rfl, inside, refuses⟩ := leads.reached (Nat.zero_le _) (.zero text)
    have view := turnFrom inside
    rw [turn] at view
    cases view with
    | tail missing =>
      rw [List.forall_mem_append, List.forall_mem_singleton]
      exact ⟨passed, refuses.isWhole missing⟩
  | breaksOff leads turn => exact (leads.reached (Nat.zero_le _) (.zero text)).1

theorem split_of_isWhole {sentence : List Char} (whole : IsWhole sentence) {bounds : LengthBounds}
    (kept : bounds.keeps sentence = true) : split bounds sentence = .ok [sentence] := by
  rw [split, all_of_isWhole whole, Except.map, List.filter_cons_of_pos kept, List.filter_nil]

/-- Every sentence that a text is split into gives itself and nothing else when it is split alone
with the same bounds. If the text cannot be split to its end, so does every sentence that the walk
through it passes before it breaks off and that the bounds keep. -/
theorem split_alone (bounds : LengthBounds) (text : List Char) :
    (∀ kept, split bounds text = .ok kept →
        ∀ sentence ∈ kept, split bounds sentence = .ok [sentence]) ∧
      ∀ sentences fault?, Walk text sentences fault? →
        ∀ sentence ∈ sentences, bounds.keeps sentence = true →
          split bounds sentence = .ok [sentence] := by
  constructor
  · intro kept splits sentence member
    have walk := exists_walk text
    rw [split] at splits
    cases whole : all text with
    | error fault => simp [whole, Except.map] at splits
    | ok sentences =>
      rw [whole] at splits walk
      rw [← Except.ok.inj splits] at member
      obtain ⟨inText, keeps⟩ := List.mem_filter.mp member
      exact split_of_isWhole (Walk.isWhole walk sentence inText) keeps
  · intro sentences fault? walk sentence member keeps
    exact split_of_isWhole (walk.isWhole sentence member) keeps

/-- A sentence with a quotation, an initial and a parenthesis. -/
def doeSentence : List Char :=
  "\"J. Doe ran (far. Away). So!\" he said. ".toList

/-- A sentence in which a wide space stands before the word of a full stop. -/
def dayText : List Char :=
  "It was\u2003Mr. Day.".toList

theorem split_doeSentence :
    split ⟨9, 90⟩ (doeSentence ++ dayText) = .error .wideSpaceBeforeWord ∧
      Walk (doeSentence ++ dayText) [doeSentence] (some .word) ∧
      split ⟨9, 90⟩ doeSentence = .ok [doeSentence] := by
  have initial : (atChar (doeSentence ++ dayText) 0).turn =
      .ok (.refused ⟨doeSentence ++ dayText, 3⟩) := by decide +kernel
  have inside : (⟨doeSentence ++ dayText, 3⟩ : Cursor).turn =
      .ok (.refused ⟨doeSentence ++ dayText, 17⟩) := by decide +kernel
  have quoted : (⟨doeSentence ++ dayText, 17⟩ : Cursor).turn =
      .ok (.refused ⟨doeSentence ++ dayText, 24⟩) := by decide +kernel
  have closed : (⟨doeSentence ++ dayText, 24⟩ : Cursor).turn =
      .ok (.sentence doeSentence ⟨dayText, 0⟩) := by decide +kernel
  have broken : (⟨dayText, 0⟩ : Cursor).turn = .error .word := by decide +kernel
  have leads : Leads (atChar (doeSentence ++ dayText) 0) [doeSentence] ⟨dayText, 0⟩ :=
    .refused initial (.refused inside (.refused quoted (.sentence closed (.here _))))
  have walk := Walk.breaksOff leads broken
  refine ⟨by decide +kernel, walk, ?_⟩
  exact (split_alone ⟨9, 90⟩ (doeSentence ++ dayText)).2 _ _ walk doeSentence
    (List.mem_singleton.mpr rfl) (by decide +kernel)

end Codebook.Sentences
