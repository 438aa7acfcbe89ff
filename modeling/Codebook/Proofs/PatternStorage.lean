/-
This file says when two patterns are stored in the same place. What a token of a pattern stands for
can be told from its upper case, so the path of a pattern is put together from the tokens on both
sides of the verb, in upper case and each with the link on its inner side, and they can be read off
it again. Main statement: two patterns of an anchor share their path, and their node, exactly if
they agree in these tokens and links (`VerbDictionary.share_path_iff`).
-/

import Codebook.Proofs.LongestMatch
import Codebook.Proofs.TrieNodes
import Codebook.Proofs.UpperCase

namespace Codebook

open Text

namespace Phrase

/-! ### Steps of tokens -/

/-- What a token of a pattern stands for, given in upper case. -/
def kindOf (text : String) : TokenKind :=
  if text.toList.head? = some '&' then .synset
  else if text = "+" ∨ text = "$" ∨ text = "%" then .slot
  else .word

/-- The step for a token in upper case, given with the link on its inner side. -/
def linkedStep (token : String × Link) : Step :=
  .token (kindOf token.1) token.1 token.2

theorem linkedStep_injective : Function.Injective linkedStep := by
  rintro ⟨text, link⟩ ⟨other, otherLink⟩ same
  obtain ⟨-, sameText, sameLink⟩ := Step.token.inj same
  exact Prod.ext sameText sameLink

theorem upper_eq_mark_iff {mark : Char} (ascii : mark.toNat < 128) (noLetter : ¬ mark.isAlpha)
    {text : String} : upper text = String.ofList [mark] ↔ text = String.ofList [mark] := by
  rw [← String.toList_inj, ← String.toList_inj, toList_upper, String.toList_ofList,
    upperChars_eq_singleton_iff ascii noLetter]

/-- Slots and references to synsets are told from words by marks, which upper case keeps. -/
theorem patternStep_eq (text : String) (link : Link) :
    patternStep text link = linkedStep (upper text, link) := by
  have reference : (upper text).toList.head? = some '&' ↔ text.toList.head? = some '&' := by
    rw [toList_upper, head?_upperChars_eq_some_iff (by decide) (by decide)]
  have slot : upper text = "+" ∨ upper text = "$" ∨ upper text = "%" ↔
      text = "+" ∨ text = "$" ∨ text = "%" :=
    or_congr (upper_eq_mark_iff (by decide) (by decide))
      (or_congr (upper_eq_mark_iff (by decide) (by decide))
        (upper_eq_mark_iff (by decide) (by decide)))
  unfold patternStep linkedStep kindOf
  simp only [reference, slot]
  split
  next => rfl
  next =>
    split
    next isSlot =>
      rcases isSlot with rfl | rfl | rfl <;> rfl
    next => rfl

/-! ### Tokens with their links -/

/-- The tokens of a phrase in upper case, each with the link before it. Without a link before the
first one there is a gap. -/
def linkedBefore (phrase : Phrase) : List (String × Link) :=
  (phrase.tokens.map (upper ·.text)).zip
    (phrase.lead.getD .gap :: phrase.tokens.map (·.after))

/-- The tokens of a phrase in upper case, each with the link after it. -/
def linkedAfter (phrase : Phrase) : List (String × Link) :=
  phrase.tokens.map fun token => (upper token.text, token.after)

theorem forwardSteps_eq (link : Link) (tokens : List Token) :
    forwardSteps patternStep link tokens =
      ((tokens.map (upper ·.text)).zip (link :: tokens.map (·.after))).map linkedStep := by
  induction tokens generalizing link with
  | nil => rfl
  | cons token rest inductionHypothesis =>
    rw [forwardSteps, inductionHypothesis, patternStep_eq]
    rfl

end Phrase

namespace Pattern

/-- The path of a pattern is made of its tokens behind the verb, each with the link before it, and
of those before the verb, from right to left and each with the link after it. -/
theorem path_eq_linked (pattern : Pattern) :
    pattern.path = .root pattern.anchor ::
      (pattern.after.linkedBefore.map Phrase.linkedStep ++ .boundary ::
        pattern.before.linkedAfter.reverse.map Phrase.linkedStep) := by
  have backward : pattern.before.backward Phrase.patternStep =
      pattern.before.linkedAfter.reverse.map Phrase.linkedStep := by
    rw [Phrase.backward, Phrase.linkedAfter, ← List.map_reverse, List.map_map]
    exact List.map_congr_left fun token _ => Phrase.patternStep_eq token.text token.after
  rw [path, backward, Phrase.forward, Phrase.forwardSteps_eq, ← Phrase.linkedBefore]
  simp

/-- The anchor and the tokens on both sides can be read off the path. -/
theorem path_eq_path_iff {pattern other : Pattern} :
    pattern.path = other.path ↔ pattern.anchor = other.anchor ∧
      pattern.after.linkedBefore = other.after.linkedBefore ∧
      pattern.before.linkedAfter = other.before.linkedAfter := by
  have noBoundary (tokens : List (String × Link)) :
      Step.boundary ∉ tokens.map Phrase.linkedStep := by
    simp [Phrase.linkedStep]
  have sameRoot : Step.root pattern.anchor = Step.root other.anchor ↔
      pattern.anchor = other.anchor := by
    simp
  rw [path_eq_linked, path_eq_linked, List.cons.injEq, sameRoot,
    List.append_cons_inj_of_notMem (noBoundary _) (noBoundary _),
    Phrase.linkedStep_injective.list_map.eq_iff, Phrase.linkedStep_injective.list_map.eq_iff,
    List.reverse_inj, eq_self_iff_true, true_and]

end Pattern

/-! ### Stored patterns -/

namespace VerbDictionary

variable {file : String} {script : Script}

/-- The node that holds what is stored for a pattern. -/
theorem exists_node_of_pattern (file : String) {pattern : Pattern}
    (stored : pattern ∈ patternsOf script) :
    let patterns := (compile file script).dictionary.patterns
    ∃ node, patterns.walk (pattern.path ++ [.boundary]) = some node ∧
      pattern.entry ∈ patterns.payloads node :=
  Trie.mem_find_iff.mp (mem_find_path file stored)

/-- Two stored patterns share their path exactly if they have the same anchor, the same tokens
behind the verb with the same links before them, and the same tokens before the verb with the same
links after them, in upper case. Exactly then they are stored in the same node. -/
theorem share_path_iff (file : String) {pattern other : Pattern}
    (stored : pattern ∈ patternsOf script) (otherStored : other ∈ patternsOf script) :
    let patterns := (compile file script).dictionary.patterns
    (pattern.path = other.path ↔ pattern.anchor = other.anchor ∧
        pattern.after.linkedBefore = other.after.linkedBefore ∧
        pattern.before.linkedAfter = other.before.linkedAfter) ∧
      ∃ node otherNode,
        patterns.walk (pattern.path ++ [.boundary]) = some node ∧
        pattern.entry ∈ patterns.payloads node ∧
        patterns.walk (other.path ++ [.boundary]) = some otherNode ∧
        other.entry ∈ patterns.payloads otherNode ∧
        (node = otherNode ↔ pattern.path = other.path) := by
  intro patterns
  obtain ⟨node, reached, holds⟩ := exists_node_of_pattern file stored
  obtain ⟨otherNode, otherReached, otherHolds⟩ := exists_node_of_pattern file otherStored
  refine ⟨Pattern.path_eq_path_iff, node, otherNode, reached, holds, otherReached, otherHolds, ?_⟩
  have wellFormed : patterns.WellFormed := by
    rw [show patterns = _ from patterns_compile file script]
    exact Trie.wellFormed_empty.insertAll _
  constructor
  · rintro rfl
    exact List.append_cancel_right (wellFormed.walk_injective reached otherReached)
  · intro same
    rw [same, otherReached] at reached
    exact (Option.some.inj reached).symm

/-- Three patterns with the same words, of which the third has them on the other side. -/
def talksScript : Script where
  lines := List.mapIdx (fun index text => ⟨index + 1, text.toList⟩)
    ["&PEACE", "HOLD", "- * &PEACE_TALKS + [030]", "- *  &peace_talks +_ [031]",
      "- &PEACE_TALKS + * [032]"]
  failedAfter := none

/-- The words of the patterns as they are written in capitals. -/
def talksWords : List Token :=
  [⟨"&PEACE", .adjacent⟩, ⟨"TALKS", .gap⟩, ⟨"+", .gap⟩]

/-- The case of the words makes no difference, the side of the verb does. -/
theorem talks_share_path :
    let capital : Pattern := ⟨"HOLD", ⟨none, []⟩, ⟨some .gap, talksWords⟩, "030", 3⟩
    let small : Pattern := ⟨"HOLD", ⟨none, []⟩, ⟨some .gap,
      [⟨"&peace", .adjacent⟩, ⟨"talks", .gap⟩, ⟨"+", .gap⟩]⟩, "031", 4⟩
    let left : Pattern := ⟨"HOLD", ⟨none, talksWords⟩, ⟨none, []⟩, "032", 5⟩
    patternsOf talksScript = [capital, small, left] ∧
      capital.path = small.path ∧ capital.path ≠ left.path := by
  intro capital small left
  have patterns : patternsOf talksScript = [capital, small, left] := by decide +kernel
  have isStored {pattern : Pattern} (member : pattern ∈ [capital, small, left]) :
      pattern ∈ patternsOf talksScript := patterns ▸ member
  refine ⟨patterns, ?_, ?_⟩
  · refine (share_path_iff "verbs" (isStored (by simp)) (isStored (by simp))).1.mpr ?_
    exact ⟨rfl, by decide +kernel, rfl⟩
  · intro same
    have agree := (share_path_iff "verbs" (isStored (by simp)) (isStored (by simp))).1.mp same
    exact absurd agree.2.1 (by decide +kernel)

end VerbDictionary

end Codebook
