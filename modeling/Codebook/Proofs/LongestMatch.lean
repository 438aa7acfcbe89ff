/-
This file says which pattern decides the code of a verb. A pattern is a candidate if its words stand
around the verb, whether they are written with gaps or not. The longest candidate to the right, and
among these the longest to the left, decides, but only among the candidates that no other pattern
shadows (`VerbDictionary.resolve_eq_longest`): where a word of one pattern follows a gap that is
adjacent in another one, the search goes on along the first and never comes back to the second.
-/

import Codebook.Proofs.PatternPaths
import Codebook.Proofs.VerbLines
import Mathlib.Data.Prod.Lex

namespace Codebook

open Text

/-! ### Words around a verb -/

/-- Whether a token of a pattern stands for itself. -/
abbrev Phrase.IsLiteral (text : String) : Prop :=
  text.toList.head? ≠ some '&' ∧ text ≠ "+" ∧ text ≠ "$" ∧ text ≠ "%"

/-- Whether a token of a pattern stands for a word. -/
def Token.Reads (token : Token) (word : String) : Prop :=
  Phrase.IsLiteral token.text ∧ upper token.text = upper word

theorem Phrase.spells_patternStep {text : String} {link : Link} {word : String} :
    (patternStep text link).Spells (some word) ↔ IsLiteral text ∧ upper text = upper word := by
  unfold patternStep
  split
  next isSynset => simp [Step.Spells, isSynset]
  next noSynset =>
    split
    next isSlot =>
      have noLiteral : ¬ IsLiteral text := by
        rintro ⟨-, noPlus, noDollar, noPercent⟩
        rcases isSlot with same | same | same
        · exact noPlus same
        · exact noDollar same
        · exact noPercent same
      simp [Step.Spells, noLiteral]
    next noSlot =>
      have isLiteral : IsLiteral text := ⟨noSynset, by simpa only [not_or] using noSlot⟩
      exact ⟨fun same => ⟨isLiteral, same⟩, And.right⟩

theorem Phrase.patternStep_ne_boundary (text : String) (link : Link) :
    patternStep text link ≠ .boundary := by
  unfold patternStep literal
  split
  · simp
  · split <;> simp

theorem Phrase.forwardSteps_ne_boundary {link : Link} {tokens : List Token} :
    ∀ step ∈ forwardSteps patternStep link tokens, step ≠ .boundary := by
  induction tokens generalizing link with
  | nil => simp [forwardSteps]
  | cons token rest inductionHypothesis =>
    exact List.forall_mem_cons.mpr ⟨patternStep_ne_boundary _ _, inductionHypothesis⟩

theorem Phrase.forall₂_forwardSteps {link : Link} {tokens : List Token} {words : List String} :
    List.Forall₂ Step.Spells (forwardSteps patternStep link tokens) (words.map some) ↔
      List.Forall₂ Token.Reads tokens words := by
  induction tokens generalizing link words with
  | nil => cases words <;> simp [forwardSteps]
  | cons token rest inductionHypothesis =>
    cases words with
    | nil => simp [forwardSteps]
    | cons word words =>
      rw [forwardSteps, List.map_cons, List.forall₂_cons, List.forall₂_cons,
        inductionHypothesis, spells_patternStep]
      rfl

theorem Phrase.forall₂_backward {phrase : Phrase} {words : List String} :
    List.Forall₂ Step.Spells (phrase.backward patternStep) (words.map some) ↔
      List.Forall₂ Token.Reads phrase.tokens.reverse words := by
  rw [backward, List.forall₂_map_left_iff, List.forall₂_map_right_iff]
  simp only [spells_patternStep]
  rfl

/-- The tokens of a phrase read the first words of a text exactly if they stand for themselves and
spell a beginning of the text. -/
theorem Token.forall₂_reads_take {tokens : List Token} {words : List String} {count : Nat}
    (inside : count ≤ words.length) :
    List.Forall₂ Reads tokens (words.take count) ↔
      (∀ token ∈ tokens, Phrase.IsLiteral token.text) ∧
        tokens.map (upper ·.text) <+: words.map upper ∧ tokens.length = count := by
  have texts : List.Forall₂ (fun token word => upper (Token.text token) = upper word) tokens
      (words.take count) ↔ tokens.map (upper ·.text) = (words.map upper).take count := by
    rw [← List.map_take, ← List.forall₂_eq_eq_eq, List.forall₂_map_left_iff,
      List.forall₂_map_right_iff]
  have split : List.Forall₂ Reads tokens (words.take count) ↔
      (∀ token ∈ tokens, Phrase.IsLiteral token.text) ∧
        tokens.map (upper ·.text) = (words.map upper).take count := by
    rw [← texts, ← List.forall₂_and_left]
    rfl
  rw [split, List.prefix_iff_eq_take, List.length_map]
  refine and_congr_right fun _ => ⟨fun same => ?_, fun same => same.2 ▸ same.1⟩
  have length : tokens.length = count := by
    simpa [inside] using congrArg List.length same
  exact ⟨length ▸ same, length⟩

/-- A boundary spells the change of sides and nothing else does. -/
theorem Step.forall₂_spells_boundary {right left : Path} {after before : List String}
    (noBoundary : ∀ step ∈ right, step ≠ .boundary) :
    List.Forall₂ Spells (right ++ [.boundary] ++ left) (after.map some ++ none :: before.map some) ↔
      List.Forall₂ Spells right (after.map some) ∧ List.Forall₂ Spells left (before.map some) := by
  induction right generalizing after with
  | nil =>
    cases after with
    | nil => simp [Spells]
    | cons word rest => simp [Spells]
  | cons step rest inductionHypothesis =>
    obtain ⟨isStep, areSteps⟩ := List.forall_mem_cons.mp noBoundary
    cases after with
    | nil =>
      have notSpelled : ¬ step.Spells none := by
        cases step with
        | boundary => exact absurd rfl isStep
        | token kind text link => cases kind <;> exact id
      simp [notSpelled]
    | cons word words =>
      simp only [List.cons_append, List.map_cons, List.forall₂_cons]
      rw [inductionHypothesis areSteps, and_assoc]

/-! ### Candidates -/

namespace Pattern

/-- Whether the words around a verb are those of a pattern: the words behind it start with the
pattern's, and the words before it end with the pattern's. -/
@[mk_iff]
structure Matches (pattern : Pattern) (preceding following : List String) : Prop where
  literal : ∀ token ∈ pattern.before.tokens ++ pattern.after.tokens,
    Phrase.IsLiteral token.text
  after : pattern.after.tokens.map (upper ·.text) <+: following.map upper
  before : pattern.before.tokens.map (upper ·.text) <:+ preceding.map upper
  notBare : pattern.before.tokens ++ pattern.after.tokens ≠ []

instance (pattern : Pattern) (preceding following : List String) :
    Decidable (pattern.Matches preceding following) :=
  decidable_of_iff _ (matches_iff ..).symm

/-- The number of words to the right and to the left. The right side is compared first. -/
def extent (pattern : Pattern) : Nat ×ₗ Nat :=
  toLex (pattern.after.tokens.length, pattern.before.tokens.length)

/-- The patterns stored under `anchor` that match the words around a verb. -/
structure Candidate (patterns : List Pattern) (anchor : String) (preceding following : List String)
    (pattern : Pattern) : Prop where
  stored : pattern ∈ patterns
  under : pattern.anchor = anchor
  fits : pattern.Matches preceding following

/-- Whether a pattern is one of the longest of its kind. -/
structure IsLongest (kind : Pattern → Prop) (pattern : Pattern) : Prop where
  member : kind pattern
  longest : ∀ other, kind other → other.extent ≤ pattern.extent

/-- A longest one of a smaller kind is a longest one of a larger kind if a longest one of the larger
kind belongs to the smaller one. -/
theorem IsLongest.of_longer {kind smaller : Pattern → Prop} {pattern other : Pattern}
    (longest : pattern.IsLongest fun third => kind third ∧ smaller third)
    (otherLongest : other.IsLongest kind) (belongs : smaller other) : pattern.IsLongest kind where
  member := longest.member.1
  longest third isThird :=
    (otherLongest.longest third isThird).trans
      (longest.longest other ⟨otherLongest.member, belongs⟩)

/-- Whether somewhere on its path a pattern goes on with an adjacent word where another pattern goes
on with the same word after a gap. -/
def Shadowed (patterns : List Pattern) (pattern : Pattern) : Prop :=
  ∃ other ∈ patterns, ∃ front text, front ++ [.word text .adjacent] <+: pattern.path ∧
    front ++ [.word text .gap] <+: other.path

/-- A pattern without adjacent words is never shadowed. -/
theorem not_shadowed_of_gaps {patterns : List Pattern} (pattern : Pattern)
    (gaps : ∀ step ∈ pattern.path, step.link? ≠ some .adjacent) :
    ¬ pattern.Shadowed patterns := by
  rintro ⟨other, stored, front, text, own, -⟩
  exact gaps (.word text .adjacent) (own.subset (by simp)) rfl

/-- The path of a pattern behind its anchor. -/
def steps (pattern : Pattern) : Path :=
  pattern.after.forward (pattern.after.lead.getD .gap) Phrase.patternStep ++ [.boundary] ++
    pattern.before.backward Phrase.patternStep

theorem path_eq (pattern : Pattern) : pattern.path = [.root pattern.anchor] ++ pattern.steps := by
  simp [path, steps]

/-- A pattern matches some words to the right and some words to the left of a verb exactly if its
path spells them. -/
theorem forall₂_spells_steps {pattern : Pattern} {preceding following : List String}
    {right left : Nat} (rightInside : right ≤ following.length)
    (leftInside : left ≤ preceding.length) (counts : ¬ (right = 0 ∧ left = 0)) :
    List.Forall₂ Step.Spells pattern.steps (outward preceding following right left) ↔
      pattern.Matches preceding following ∧ pattern.extent = toLex (right, left) := by
  rw [steps, outward, Phrase.forward, Step.forall₂_spells_boundary Phrase.forwardSteps_ne_boundary,
    Phrase.forall₂_forwardSteps, Phrase.forall₂_backward, Token.forall₂_reads_take rightInside,
    Token.forall₂_reads_take (by simpa using leftInside), matches_iff, List.map_reverse,
    List.map_reverse, List.reverse_prefix, List.length_reverse]
  simp only [extent, toLex_inj, Prod.mk.injEq, List.forall_mem_append, List.mem_reverse]
  constructor
  · rintro ⟨⟨afterLiteral, after, rightCount⟩, beforeLiteral, before, leftCount⟩
    refine ⟨⟨⟨beforeLiteral, afterLiteral⟩, after, before, fun bare => counts ?_⟩, rightCount,
      leftCount⟩
    obtain ⟨noBefore, noAfter⟩ := List.append_eq_nil_iff.mp bare
    exact ⟨by simp [← rightCount, noAfter], by simp [← leftCount, noBefore]⟩
  · rintro ⟨⟨⟨beforeLiteral, afterLiteral⟩, after, before, -⟩, rightCount, leftCount⟩
    exact ⟨⟨afterLiteral, after, rightCount⟩, beforeLiteral, before, leftCount⟩

end Pattern

/-! ### Stored patterns -/

namespace VerbDictionary

variable {file : String} {script : Script} {pattern : Pattern}

theorem find_path_ne_nil (stored : pattern ∈ patternsOf script) :
    (compile file script).dictionary.patterns.find pattern.path ≠ [] :=
  List.ne_nil_of_mem (mem_find_path file stored)

theorem walk_path_isSome (stored : pattern ∈ patternsOf script) :
    ((compile file script).dictionary.patterns.walk pattern.path).isSome := by
  rw [← Option.ne_none_iff_isSome]
  intro nowhere
  exact find_path_ne_nil stored (Trie.find_eq_nil_of_prefix (List.prefix_refl _) nowhere)

/-- A word after a gap leads somewhere, behind an anchor, only along the path of a pattern. -/
theorem walk_gap_isSome_iff {anchor text : String} {front : Path} :
    ((compile file script).dictionary.patterns.walk
        ([.root anchor] ++ front ++ [.word text .gap])).isSome ↔
      ∃ other ∈ patternsOf script, [.root anchor] ++ front ++ [.word text .gap] <+: other.path := by
  constructor
  · rw [patterns_compile, Trie.walk_insertAll_isSome]
    rintro (empty | ⟨⟨path, entry⟩, added, isPrefix⟩)
    · simp at empty
    · rcases VerbState.mem_addedBy added with ⟨other, stored, rfl, -⟩ | rfl
      · rcases List.prefix_concat_iff.mp isPrefix with same | inner
        · have noWord := List.append_inj_right' same rfl
          simp at noWord
        · exact ⟨other, stored, inner⟩
      · have isStep : Step.word text .gap ∈ [Step.boundary, .boundary] := by
          obtain ⟨-, behind⟩ := List.cons_prefix_cons.mp isPrefix
          exact behind.subset (by simp)
        simp at isStep
  · rintro ⟨other, stored, isPrefix⟩
    exact Trie.walk_isSome_of_prefix isPrefix (walk_path_isSome stored)

/-- No path forks off a pattern exactly if no pattern shadows it. -/
theorem unforked_iff :
    (compile file script).dictionary.patterns.Unforked [.root pattern.anchor] pattern.steps ↔
      ¬ pattern.Shadowed (patternsOf script) := by
  constructor
  · rintro unforked ⟨other, stored, front, text, own, others⟩
    rw [pattern.path_eq] at own
    rcases front with _ | ⟨first, front⟩
    · simp at own
    · obtain ⟨rfl, inner⟩ := List.cons_prefix_cons.mp own
      have leads : ((compile file script).dictionary.patterns.walk
          ([.root pattern.anchor] ++ front ++ [.word text .gap])).isSome :=
        walk_gap_isSome_iff.mpr ⟨other, stored, others⟩
      rw [unforked front text inner] at leads
      cases leads
  · intro unshadowed front text own
    rw [← Option.not_isSome_iff_eq_none]
    intro leads
    obtain ⟨other, stored, others⟩ := walk_gap_isSome_iff.mp leads
    refine unshadowed ⟨other, stored, [.root pattern.anchor] ++ front, text, ?_, others⟩
    rw [pattern.path_eq, List.append_assoc]
    exact (List.prefix_append_right_inj _).mpr own

/-! ### The pattern that decides -/

section Around

variable {anchor : String} {preceding following : List String} {right left : Nat}

/-- A pattern stands on the path of a text exactly if it matches the text and is not shadowed. -/
theorem path_eq_preferredPath (file : String) (stored : pattern ∈ patternsOf script)
    (rightInside : right ≤ following.length) (leftInside : left ≤ preceding.length)
    (counts : ¬ (right = 0 ∧ left = 0)) :
    pattern.path = (compile file script).dictionary.patterns.preferredPath [.root pattern.anchor]
        (outward preceding following right left) ↔
      (pattern.Matches preceding following ∧ pattern.extent = toLex (right, left)) ∧
        ¬ pattern.Shadowed (patternsOf script) := by
  have leads : ((compile file script).dictionary.patterns.walk pattern.path).isSome :=
    walk_path_isSome stored
  rw [pattern.path_eq] at leads ⊢
  rw [Trie.eq_preferredPath leads, unforked_iff,
    Pattern.forall₂_spells_steps rightInside leftInside counts]

/-- What is found around a verb is a candidate that is not shadowed, the first one on its path. -/
theorem candidate_of_entryAround? {entry : VerbEntry} (rightInside : right ≤ following.length)
    (leftInside : left ≤ preceding.length)
    (found : (compile file script).dictionary.entryAround? [.root anchor] preceding following
      right left = some entry) :
    ∃ pattern : Pattern, pattern.IsFirst script ∧
      (pattern.Candidate (patternsOf script) anchor preceding following ∧
        ¬ pattern.Shadowed (patternsOf script)) ∧ pattern.extent = toLex (right, left) ∧
        pattern.entry = entry := by
  rw [entryAround?] at found
  split at found
  next => cases found
  next counts =>
    have long : ((compile file script).dictionary.patterns.preferredPath [.root anchor]
        (outward preceding following right left)).length ≠ 2 := by
      simp [outward]
      omega
    obtain ⟨pattern, first, onPath, same⟩ := exists_isFirst_of_find found long
    have under : pattern.anchor = anchor := by
      have isPrefix := Trie.prefix_preferredPath (compile file script).dictionary.patterns
        [.root anchor] (outward preceding following right left)
      rw [← onPath, pattern.path_eq] at isPrefix
      simpa [eq_comm] using isPrefix
    subst under
    obtain ⟨⟨fits, extent⟩, unshadowed⟩ :=
      (path_eq_preferredPath file first.mem rightInside leftInside counts).mp onPath
    exact ⟨pattern, first, ⟨⟨first.mem, rfl, fits⟩, unshadowed⟩, extent, same⟩

/-- Every candidate that is not shadowed is found around the verb. -/
theorem entryAround?_of_candidate (file : String)
    (candidate : pattern.Candidate (patternsOf script) anchor preceding following)
    (unshadowed : ¬ pattern.Shadowed (patternsOf script)) :
    ∃ right left, pattern.extent = toLex (right, left) ∧ right ≤ following.length ∧
      left ≤ preceding.length ∧
      (compile file script).dictionary.entryAround? [.root anchor] preceding following right
        left ≠ none := by
  obtain ⟨stored, rfl, fits⟩ := candidate
  have rightInside : pattern.after.tokens.length ≤ following.length := by
    simpa using fits.after.length_le
  have leftInside : pattern.before.tokens.length ≤ preceding.length := by
    simpa using fits.before.length_le
  have counts : ¬ (pattern.after.tokens.length = 0 ∧ pattern.before.tokens.length = 0) := by
    rintro ⟨noAfter, noBefore⟩
    apply fits.notBare
    rw [List.length_eq_zero_iff.mp noAfter, List.length_eq_zero_iff.mp noBefore, List.append_nil]
  have onPath := (path_eq_preferredPath file stored rightInside leftInside counts).mpr
    ⟨⟨fits, rfl⟩, unshadowed⟩
  refine ⟨_, _, rfl, rightInside, leftInside, ?_⟩
  rw [entryAround?, if_neg counts, ← onPath, ne_eq, List.head?_eq_none_iff]
  exact find_path_ne_nil stored

/-- The pattern that decides is a longest one of the candidates that are not shadowed, and the first
one on its path. -/
theorem isLongest_of_matchPattern? {node : Nat} {entry : VerbEntry}
    (root : (compile file script).dictionary.patterns.root? anchor = some node)
    (decides : (compile file script).dictionary.matchPattern? node preceding following =
      some entry) :
    ∃ pattern : Pattern, pattern.entry = entry ∧ pattern.IsFirst script ∧
      pattern.IsLongest fun other =>
        other.Candidate (patternsOf script) anchor preceding following ∧
          ¬ other.Shadowed (patternsOf script) := by
  rw [matchPattern?_eq ((Trie.walk_root _ anchor).trans root)] at decides
  obtain ⟨right, rightBelow, toTheRight, noneRight⟩ := lastSome?_eq_some decides
  obtain ⟨left, leftBelow, found, noneLeft⟩ := lastSome?_eq_some toTheRight
  obtain ⟨pattern, first, candidate, extent, same⟩ := candidate_of_entryAround?
    (Nat.le_of_lt_succ rightBelow) (Nat.le_of_lt_succ leftBelow) found
  refine ⟨pattern, same, first, candidate, fun other otherCandidate => ?_⟩
  obtain ⟨otherRight, otherLeft, otherExtent, rightInside, leftInside, found⟩ :=
    entryAround?_of_candidate file otherCandidate.1 otherCandidate.2
  rw [extent, otherExtent]
  by_contra longer
  -- a longer one would have been found further to the right, or as far and further to the left
  rcases Prod.Lex.toLex_lt_toLex.mp (not_le.mp longer) with further | ⟨sameRight, further⟩
  · have none := lastSome?_eq_none_iff.mp
      (noneRight otherRight further (Nat.lt_succ_of_le rightInside))
    exact found (none otherLeft (Nat.lt_succ_of_le leftInside))
  · subst sameRight
    exact found (noneLeft otherLeft further (Nat.lt_succ_of_le leftInside))

/-- Where no pattern decides, all candidates are shadowed. -/
theorem shadowed_of_no_match
    (none : ((compile file script).dictionary.patterns.root? anchor).bind (fun node =>
      (compile file script).dictionary.matchPattern? node preceding following) = none)
    (candidate : pattern.Candidate (patternsOf script) anchor preceding following) :
    pattern.Shadowed (patternsOf script) := by
  by_contra unshadowed
  obtain ⟨right, left, -, rightInside, leftInside, found⟩ :=
    entryAround?_of_candidate file candidate unshadowed
  cases root : (compile file script).dictionary.patterns.root? anchor with
  | none =>
    have leads : ((compile file script).dictionary.patterns.walk pattern.path).isSome :=
      walk_path_isSome candidate.stored
    rw [pattern.path_eq, candidate.under] at leads
    have atRoot := Trie.walk_isSome_of_prefix (List.prefix_append _ _) leads
    rw [Trie.walk_root, root] at atRoot
    cases atRoot
  | some node =>
    rw [root, Option.bind_some, matchPattern?_eq ((Trie.walk_root _ anchor).trans root)] at none
    have noneRight := lastSome?_eq_none_iff.mp none right (Nat.lt_succ_of_le rightInside)
    exact found (lastSome?_eq_none_iff.mp noneRight left (Nat.lt_succ_of_le leftInside))

end Around

/-- The code of a verb is that of a longest candidate among those that are not shadowed, and that of
its surface form only if all candidates are shadowed. -/
theorem exists_deciding {verb : String} {form : VerbEntry}
    (known : (compile file script).dictionary.form? verb = some form)
    (preceding following : List String) :
    ∃ chosen : Option Pattern,
      (compile file script).dictionary.resolve verb preceding following =
          some ((chosen.map (·.code)).getD form.code) ∧
        (∀ pattern ∈ chosen, pattern.IsLongest fun other =>
          other.Candidate (patternsOf script) form.anchor preceding following ∧
            ¬ other.Shadowed (patternsOf script)) ∧
        (chosen = none → ∀ pattern : Pattern,
          pattern.Candidate (patternsOf script) form.anchor preceding following →
            pattern.Shadowed (patternsOf script)) := by
  rw [resolve, known, Option.map_some]
  cases decides : ((compile file script).dictionary.patterns.root? form.anchor).bind fun node =>
      (compile file script).dictionary.matchPattern? node preceding following with
  | none => exact ⟨none, rfl, by simp, fun _ pattern => shadowed_of_no_match decides⟩
  | some entry =>
    obtain ⟨node, root, decides⟩ := Option.bind_eq_some_iff.mp decides
    obtain ⟨pattern, rfl, -, longest⟩ := isLongest_of_matchPattern? root decides
    exact ⟨some pattern, rfl, by simpa using longest, by simp⟩

/-- The pattern that decides is a longest one of all candidates exactly if one of these is not
shadowed. If all of them are shadowed, the code can be theirs by coincidence only. -/
theorem resolve_eq_longest {verb : String} {form : VerbEntry}
    (known : (compile file script).dictionary.form? verb = some form)
    (preceding following : List String) :
    ∃ chosen : Option Pattern,
      (compile file script).dictionary.resolve verb preceding following =
          some ((chosen.map (·.code)).getD form.code) ∧
        (∀ pattern ∈ chosen, pattern.IsLongest fun other =>
          other.Candidate (patternsOf script) form.anchor preceding following ∧
            ¬ other.Shadowed (patternsOf script)) ∧
        (chosen = none → ∀ pattern : Pattern,
          pattern.Candidate (patternsOf script) form.anchor preceding following →
            pattern.Shadowed (patternsOf script)) ∧
        ((∃ pattern ∈ chosen, pattern.IsLongest
            (·.Candidate (patternsOf script) form.anchor preceding following)) ↔
          ∃ pattern : Pattern, pattern.IsLongest
              (·.Candidate (patternsOf script) form.anchor preceding following) ∧
            ¬ pattern.Shadowed (patternsOf script)) ∧
        ((∃ pattern : Pattern, pattern.IsLongest
              (·.Candidate (patternsOf script) form.anchor preceding following) ∧
            (compile file script).dictionary.resolve verb preceding following =
              some pattern.code) ↔
          ∃ pattern : Pattern, pattern.IsLongest
              (·.Candidate (patternsOf script) form.anchor preceding following) ∧
            (¬ pattern.Shadowed (patternsOf script) ∨
              pattern.code = (chosen.map (·.code)).getD form.code)) := by
  obtain ⟨chosen, code, longest, undecided⟩ := exists_deciding known preceding following
  have ofAll {other : Pattern}
      (otherLongest : other.IsLongest
        (·.Candidate (patternsOf script) form.anchor preceding following))
      (unshadowed : ¬ other.Shadowed (patternsOf script)) :
      ∃ pattern ∈ chosen, pattern.IsLongest
        (·.Candidate (patternsOf script) form.anchor preceding following) := by
    cases chosen with
    | none => exact absurd (undecided rfl other otherLongest.member) unshadowed
    | some pattern =>
      exact ⟨pattern, rfl, (longest pattern rfl).of_longer otherLongest unshadowed⟩
  refine ⟨chosen, code, longest, undecided, ⟨?_, ?_⟩, ?_, ?_⟩
  · rintro ⟨pattern, isChosen, patternLongest⟩
    exact ⟨pattern, patternLongest, (longest pattern isChosen).member.2⟩
  · rintro ⟨other, otherLongest, unshadowed⟩
    exact ofAll otherLongest unshadowed
  · rintro ⟨pattern, patternLongest, same⟩
    rw [code] at same
    exact ⟨pattern, patternLongest, .inr (Option.some.inj same).symm⟩
  · rintro ⟨other, otherLongest, unshadowed | same⟩
    · obtain ⟨pattern, isChosen, patternLongest⟩ := ofAll otherLongest unshadowed
      obtain rfl := Option.mem_def.mp isChosen
      exact ⟨pattern, patternLongest, code⟩
    · exact ⟨other, otherLongest, by rw [code, same]⟩

/-- Two patterns that go on with the same word, adjacent in one and after a gap in the other. -/
def aidScript : Script where
  lines := List.mapIdx (fun index text => ⟨index + 1, text.toList⟩)
    ["GRANT [070]", "- *_AID [071]", "- * AID PACKAGE [072]"]
  failedAfter := none

/-- The pattern with the gap decides where it matches. -/
theorem resolve_finds_aid_package :
    (compile "verbs" aidScript).dictionary.form? "GRANT" = some ⟨"GRANT", "070", 1⟩ ∧
      ∃ chosen : Option Pattern,
        (compile "verbs" aidScript).dictionary.resolve "GRANT" [] ["AID", "PACKAGE"] =
            some ((chosen.map (·.code)).getD "070") ∧
          ∃ pattern ∈ chosen, pattern.IsLongest
            (·.Candidate (patternsOf aidScript) "GRANT" [] ["AID", "PACKAGE"]) := by
  have known : (compile "verbs" aidScript).dictionary.form? "GRANT" =
      some ⟨"GRANT", "070", 1⟩ := by
    decide +kernel
  obtain ⟨chosen, code, -, -, decides, -⟩ :=
    resolve_eq_longest known [] ["AID", "PACKAGE"]
  refine ⟨known, chosen, code, decides.mpr ?_⟩
  have present : ∃ pattern ∈ patternsOf aidScript, pattern.anchor = "GRANT" ∧
      pattern.Matches [] ["AID", "PACKAGE"] ∧ (∀ step ∈ pattern.path, step.link? ≠ some .adjacent) ∧
        ∀ other ∈ patternsOf aidScript, other.extent ≤ pattern.extent := by
    decide +kernel
  obtain ⟨pattern, stored, under, fits, gaps, longest⟩ := present
  exact ⟨pattern, ⟨⟨stored, under, fits⟩, fun other candidate => longest other candidate.stored⟩,
    pattern.not_shadowed_of_gaps gaps⟩

/-- Where it does not match, the adjacent word before it is missed, and no pattern decides. -/
theorem resolve_misses_aid :
    (compile "verbs" aidScript).dictionary.form? "GRANT" = some ⟨"GRANT", "070", 1⟩ ∧
      (∃ pattern : Pattern, pattern.Candidate (patternsOf aidScript) "GRANT" [] ["AID"]) ∧
      ¬ ∃ pattern : Pattern,
        pattern.IsLongest (·.Candidate (patternsOf aidScript) "GRANT" [] ["AID"]) ∧
          (compile "verbs" aidScript).dictionary.resolve "GRANT" [] ["AID"] =
            some pattern.code := by
  have present : ∃ pattern ∈ patternsOf aidScript, pattern.anchor = "GRANT" ∧
      pattern.Matches [] ["AID"] := by
    decide +kernel
  have code : (compile "verbs" aidScript).dictionary.resolve "GRANT" [] ["AID"] = some "070" := by
    decide +kernel
  have others : ∀ pattern ∈ patternsOf aidScript, pattern.code ≠ "070" := by
    decide +kernel
  refine ⟨by decide +kernel, ?_, ?_⟩
  · obtain ⟨pattern, stored, under, fits⟩ := present
    exact ⟨pattern, stored, under, fits⟩
  · rintro ⟨pattern, longest, same⟩
    rw [code] at same
    exact others pattern longest.member.stored (Option.some.inj same).symm

end VerbDictionary

end Codebook
