/-
This file says where the code of a verb comes from. Main statement: a verb has a code exactly if it
is a known form, and the code is that of the form or that of a pattern which stands around the verb:
the first one with its path, stored under the anchor of the form, with words only and at least one
of them (`VerbDictionary.resolve_sound`). The anchor itself is stored on the path of a pattern
without words. The search never looks there, so the anchor is not taken for a pattern.
-/

import Codebook.Proofs.LinesInOrder
import Codebook.Proofs.LongestMatch

namespace Codebook

/-! ### Patterns and anchors -/

theorem Phrase.length_forwardSteps (stepOf : String → Link → Step) (link : Link)
    (tokens : List Token) : (forwardSteps stepOf link tokens).length = tokens.length := by
  induction tokens generalizing link with
  | nil => rfl
  | cons token rest inductionHypothesis =>
    rw [forwardSteps, List.length_cons, inductionHypothesis, List.length_cons]

namespace Pattern

variable {pattern : Pattern}

/-- The path of a pattern has a step for each of its words, besides its root and the boundary. -/
theorem length_path (pattern : Pattern) :
    pattern.path.length = (pattern.before.tokens ++ pattern.after.tokens).length + 2 := by
  simp only [path, Phrase.forward, Phrase.backward, List.length_append, List.length_map,
    List.length_reverse, Phrase.length_forwardSteps, List.length_cons, List.length_nil]
  omega

/-- A pattern with words is not stored where its anchor is. -/
theorem path_ne_formPath (hasWords : pattern.before.tokens ++ pattern.after.tokens ≠ [])
    (anchor : String) : pattern.path ≠ VerbDictionary.formPath anchor := by
  intro same
  have length : pattern.path.length = 2 := by rw [same]; rfl
  rw [length_path] at length
  exact hasWords (List.eq_nil_of_length_eq_zero (by omega))

/-- What is stored for a pattern is stored for no verb that becomes the primary of a block, since
the two have different lines. -/
theorem IsFirst.not_primary {lines : List PhysicalLine}
    (first : pattern.IsFirst (Script.ofLines lines)) :
    some pattern.entry ∉
      VerbState.start.trace VerbState.primary? (Script.ofLines lines).lines := by
  intro member
  obtain ⟨above, line, below, here, stored, -⟩ := first
  obtain ⟨earlier, other, later, there, primary⟩ := VerbState.mem_trace.mp member
  obtain ⟨-, -, ownNumber⟩ := VerbState.pattern?_eq_some stored
  have sameNumber : other.number = line.number :=
    (VerbState.line_of_primary? primary).symm.trans ownNumber
  rcases Script.compare_positions here there with ⟨smaller, -⟩ | ⟨rfl, rfl⟩ | larger
  · exact absurd sameNumber smaller.ne
  · rw [VerbState.primary?_of_pattern? stored] at primary
    cases primary
  · exact absurd sameNumber larger.ne'

end Pattern

/-! ### Where the code comes from -/

namespace VerbDictionary

open VerbState

/-- What the search around a verb finds among the patterns of an anchor. -/
def recordAround? (verbs : VerbDictionary) (anchor : String) (preceding following : List String) :
    Option VerbEntry :=
  (verbs.patterns.root? anchor).bind fun node => verbs.matchPattern? node preceding following

/-- What is found around a verb replaces the code of its form. -/
theorem resolve_eq (verbs : VerbDictionary) (verb : String) (preceding following : List String) :
    verbs.resolve verb preceding following = (verbs.form? verb).map fun form =>
      ((verbs.recordAround? form.anchor preceding following).map (·.code)).getD form.code := by
  rw [resolve]
  congr 1
  funext form
  rw [recordAround?]
  split
  next found => rw [found]; rfl
  next none => rw [none]; rfl

theorem resolve_eq_none_iff {verbs : VerbDictionary} {verb : String}
    {preceding following : List String} :
    verbs.resolve verb preceding following = none ↔ verbs.form? verb = none := by
  rw [resolve_eq, Option.map_eq_none_iff]

/-- A verb is resolved exactly if it is a known form. Its code is that of the form, if nothing was
found around the verb, or that of the pattern that was found. In the first case, all patterns that
stand around the verb are shadowed. In the second case, the pattern is the first one in the file
with its path. The path starts at the anchor of the form, and the words on it, of which there is at
least one, stand around the verb. So the pattern is stored elsewhere than the anchor, and what was
found was not stored for an anchor. -/
theorem resolve_sound (file : String) (lines : List PhysicalLine) (verb : String)
    (preceding following : List String) :
    let script := Script.ofLines lines
    let verbs := (compile file script).dictionary
    (verbs.resolve verb preceding following = none ↔ verbs.form? verb = none) ∧
      ∀ form, verbs.form? verb = some form →
        ((∀ pattern : Pattern,
              pattern.Candidate (patternsOf script) form.anchor preceding following →
                pattern.Shadowed (patternsOf script)) ∧
            verbs.recordAround? form.anchor preceding following = none ∧
            verbs.resolve verb preceding following = some form.code) ∨
          ∃ pattern : Pattern, pattern.IsFirst script ∧
            pattern.path.head? = some (.root form.anchor) ∧
            pattern.Matches preceding following ∧
            pattern.path ≠ formPath form.anchor ∧
            some pattern.entry ∉ start.trace VerbState.primary? script.lines ∧
            verbs.recordAround? form.anchor preceding following = some pattern.entry ∧
            verbs.resolve verb preceding following = some pattern.code := by
  intro script verbs
  refine ⟨resolve_eq_none_iff, fun form known => ?_⟩
  have code : verbs.resolve verb preceding following =
      some (((verbs.recordAround? form.anchor preceding following).map (·.code)).getD
        form.code) := by
    rw [resolve_eq, known, Option.map_some]
  cases found : verbs.recordAround? form.anchor preceding following with
  | none =>
    rw [found] at code
    exact .inl ⟨fun pattern => shadowed_of_no_match found, rfl, code⟩
  | some record =>
    rw [found] at code
    obtain ⟨node, root, decides⟩ := Option.bind_eq_some_iff.mp found
    obtain ⟨pattern, rfl, first, longest⟩ := isLongest_of_matchPattern? root decides
    obtain ⟨⟨-, under, fits⟩, -⟩ := longest.member
    have rooted : pattern.path.head? = some (.root form.anchor) := by
      rw [pattern.path_eq, under]
      rfl
    exact .inr ⟨pattern, first, rooted, fits, pattern.path_ne_formPath fits.notBare _,
      first.not_primary, rfl, code⟩

/-- A block with two patterns for the same words, and one without words. -/
def loanLines : List PhysicalLine :=
  PhysicalLine.linesOfText
    "--- GRANT [070] ---\nGRANT\n- * [099]\n- * LOAN [071]\n- * loan [072]\n".toList

/-- The first of the two patterns decides. -/
theorem resolve_first_loan :
    (compile "verbs" (Script.ofLines loanLines)).dictionary.form? "grant" =
        some ⟨"GRANT", "070", 2⟩ ∧
      ∃ pattern : Pattern, pattern.IsFirst (Script.ofLines loanLines) ∧
        pattern.Matches ["they"] ["loan", "money"] ∧ pattern.code = "071" := by
  have known : (compile "verbs" (Script.ofLines loanLines)).dictionary.form? "grant" =
      some ⟨"GRANT", "070", 2⟩ := by
    decide +kernel
  have code : (compile "verbs" (Script.ofLines loanLines)).dictionary.resolve "grant" ["they"]
      ["loan", "money"] = some "071" := by
    decide +kernel
  refine ⟨known, ?_⟩
  rcases (resolve_sound "verbs" loanLines "grant" ["they"] ["loan", "money"]).2 _ known with
    ⟨-, -, own⟩ | ⟨pattern, first, -, fits, -, -, -, patternCode⟩
  · rw [code] at own
    exact absurd own (by decide)
  · rw [code] at patternCode
    exact ⟨pattern, first, fits, (Option.some.inj patternCode).symm⟩

end VerbDictionary

end Codebook
