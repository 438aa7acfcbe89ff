/-
This file says what of a phrase is on its path. The steps of the path are the words of the phrase in
upper case, and the words hold every character of the phrase that does not separate them. Main
statement: a punctuation mark is on the path of a phrase exactly if it is in the phrase
(`Phrase.exists_step_with_mark_iff`).
-/

import Codebook.Phrase
import Codebook.Proofs.PhraseLookup
import Codebook.Proofs.UpperCase

namespace Codebook

open Text

namespace Phrase

/-! ### Words on a path -/

/-- The words of a phrase as a look-up compares them: without their links and in upper case. -/
def upperWords (phrase : List Char) : List String :=
  (splitWords phrase).map upper

theorem exists_links_forwardSteps (link : Link) (tokens : List Token) :
    ∃ links : List Link, links.length = tokens.length ∧
      forwardSteps literal link tokens = Trie.spelled (tokens.map (·.text)) links := by
  induction tokens generalizing link with
  | nil => exact ⟨[], rfl, rfl⟩
  | cons token rest inductionHypothesis =>
    obtain ⟨links, length, same⟩ := inductionHypothesis token.after
    refine ⟨link :: links, by simp [length], ?_⟩
    rw [forwardSteps, same]
    rfl

/-- The path of a phrase spells its words. -/
theorem exists_links_rooted (phrase : List Char) :
    ∃ links : List Link, links.length = (splitWords phrase).length ∧
      (ofChars phrase).rooted = Trie.spelled (splitWords phrase) links := by
  rw [← texts_ofChars, rooted]
  cases (ofChars phrase).tokens with
  | nil => exact ⟨[], rfl, rfl⟩
  | cons token rest =>
    obtain ⟨links, length, same⟩ := exists_links_forwardSteps token.after rest
    refine ⟨.gap :: links, by simp [length], ?_⟩
    dsimp only
    rw [same]
    rfl

theorem filterMap_text?_spelled {words : List String} {links : List Link}
    (length : links.length = words.length) :
    (Trie.spelled words links).filterMap Step.text? = words.map upper := by
  induction words generalizing links with
  | nil => simp [Trie.spelled]
  | cons word rest inductionHypothesis =>
    cases links with
    | nil => cases length
    | cons link links =>
      have restTexts := inductionHypothesis (Nat.succ.inj length)
      simp only [Trie.spelled] at restTexts ⊢
      simp [Step.text?, restTexts]

/-- Whatever spells some words on the path of a phrase spells the words of the phrase. -/
theorem upperWords_of_spelled {phrase : List Char} {words : List String} {links : List Link}
    (length : links.length = words.length)
    (same : Trie.spelled words links = (ofChars phrase).rooted) :
    words.map upper = upperWords phrase := by
  obtain ⟨own, ownLength, ownPath⟩ := exists_links_rooted phrase
  rw [← filterMap_text?_spelled length, same, ownPath, filterMap_text?_spelled ownLength]
  rfl

/-- The words on the path of a phrase are those of the phrase. -/
theorem filterMap_text?_rooted (phrase : List Char) :
    (ofChars phrase).rooted.filterMap Step.text? = upperWords phrase := by
  obtain ⟨links, length, same⟩ := exists_links_rooted phrase
  rw [same, filterMap_text?_spelled length]
  rfl

/-! ### Marks in words -/

/-- The words of a phrase hold the characters that do not separate them. -/
theorem exists_word_with_iff {phrase : List Char} {c : Char} :
    (∃ word ∈ splitWords phrase, c ∈ word.toList) ↔ c ∈ phrase ∧ isSeparator c = false := by
  have chars : c ∈ (runs isSeparator phrase).flatten ↔ c ∈ phrase ∧ isSeparator c = false := by
    rw [flatten_runs, List.mem_filter, Bool.not_eq_true']
  rw [← chars, List.mem_flatten, splitWords]
  simp

/-- A mark that is neither a letter nor a separator is on the path of a phrase exactly if it is in
the phrase. -/
theorem exists_step_with_mark_iff {mark : Char} (ascii : mark.toNat < 128)
    (noLetter : ¬ mark.isAlpha) (noSeparator : isSeparator mark = false) {phrase : List Char} :
    (∃ step ∈ (ofChars phrase).rooted, ∃ word, step.text? = some word ∧ mark ∈ word.toList) ↔
      mark ∈ phrase := by
  have words : (∃ word ∈ upperWords phrase, mark ∈ word.toList) ↔ mark ∈ phrase := by
    rw [← and_iff_left (a := mark ∈ phrase) noSeparator, ← exists_word_with_iff]
    simp only [upperWords, List.mem_map, exists_exists_and_eq_and, toList_upper,
      mem_upperChars_iff ascii noLetter]
  rw [← words, ← filterMap_text?_rooted]
  constructor
  · rintro ⟨step, onPath, word, isText, marked⟩
    exact ⟨word, List.mem_filterMap.mpr ⟨step, onPath, isText⟩, marked⟩
  · rintro ⟨word, isWord, marked⟩
    obtain ⟨step, onPath, isText⟩ := List.mem_filterMap.mp isWord
    exact ⟨step, onPath, word, isText, marked⟩

end Phrase

end Codebook
