/-
This file takes texts apart: at the first character of a kind, at the first occurrence of a mark,
into the pieces between separators, and into lines. Every function is a plain recursion on the
characters, so what comes before a cut, the cut and what comes after it are three lists whose
concatenation is the text.
-/

import Codebook.Text.Space

namespace Codebook.Text

/-! ### One cut -/

/-- The text before and after the first character that satisfies `sep`, if there is one. -/
def splitAt? (sep : Char → Bool) : List Char → Option (List Char × List Char)
  | [] => none
  | c :: rest =>
    if sep c then some ([], rest)
    else (splitAt? sep rest).map fun (before, after) => (c :: before, after)

/-- The text before and after the first occurrence of `mark`, if there is one. -/
def cutAt? (mark : List Char) (text : List Char) : Option (List Char × List Char) :=
  if mark.isPrefixOf text then some ([], text.drop mark.length)
  else match text with
    | [] => none
    | c :: rest => (cutAt? mark rest).map fun (before, after) => (c :: before, after)

/-- The text after `mark`, if the text starts with it. -/
def stripStart? (mark : List Char) (text : List Char) : Option (List Char) :=
  if mark.isPrefixOf text then some (text.drop mark.length) else none

/-- The text before its last character, if that character is `last`. -/
def stripLast? (last : Char) (text : List Char) : Option (List Char) :=
  if text.getLast? = some last then some text.dropLast else none

/-- A text is what stands before its first separator, that separator, and what follows it. -/
theorem splitAt?_eq_some {sep : Char → Bool} {text before after : List Char}
    (found : splitAt? sep text = some (before, after)) :
    ∃ c, text = before ++ c :: after ∧ sep c = true ∧ ∀ d ∈ before, sep d = false := by
  induction text generalizing before with
  | nil => simp [splitAt?] at found
  | cons c rest inductionHypothesis =>
    by_cases separates : sep c = true
    · simp only [splitAt?, separates, if_true, Option.some.injEq, Prod.mk.injEq] at found
      obtain ⟨rfl, rfl⟩ := found
      exact ⟨c, rfl, separates, by simp⟩
    · simp only [splitAt?, separates, Bool.false_eq_true, if_false, Option.map_eq_some_iff,
        Prod.mk.injEq] at found
      obtain ⟨⟨before', after'⟩, found', rfl, rfl⟩ := found
      obtain ⟨d, rfl, isSep, none⟩ := inductionHypothesis found'
      refine ⟨d, rfl, isSep, ?_⟩
      simpa [separates] using none

/-- A text is split at a separator with none before it. -/
theorem splitAt?_append {sep : Char → Bool} {before : List Char}
    (none : ∀ d ∈ before, sep d = false) {c : Char} (separates : sep c = true)
    (after : List Char) : splitAt? sep (before ++ c :: after) = some (before, after) := by
  induction before with
  | nil => rw [List.nil_append, splitAt?, if_pos separates]
  | cons d rest inductionHypothesis =>
    obtain ⟨notSep, restNone⟩ := List.forall_mem_cons.mp none
    rw [List.cons_append, splitAt?, notSep, if_neg Bool.false_ne_true, inductionHypothesis restNone,
      Option.map_some]

/-- There is nothing to split exactly when no character is a separator. -/
theorem splitAt?_eq_none_iff {sep : Char → Bool} {text : List Char} :
    splitAt? sep text = none ↔ ∀ c ∈ text, sep c = false := by
  induction text with
  | nil => simp [splitAt?]
  | cons c rest inductionHypothesis =>
    by_cases separates : sep c = true <;> simp [splitAt?, separates, inductionHypothesis]

/-- A text is split at the first occurrence of a character. -/
theorem splitAt?_beq_eq_some_iff {mark : Char} {text before after : List Char} :
    splitAt? (· == mark) text = some (before, after) ↔
      text = before ++ mark :: after ∧ mark ∉ before := by
  constructor
  · intro found
    obtain ⟨c, rfl, same, none⟩ := splitAt?_eq_some found
    obtain rfl : c = mark := eq_of_beq same
    exact ⟨rfl, fun member => by simpa using none c member⟩
  · rintro ⟨rfl, notBefore⟩
    have noneBefore : ∀ c ∈ before, (c == mark) = false := by
      intro c member
      rw [beq_eq_false_iff_ne]
      rintro rfl
      exact notBefore member
    exact splitAt?_append noneBefore (beq_self_eq_true mark) after

theorem splitAt?_beq_eq_none_iff {mark : Char} {text : List Char} :
    splitAt? (· == mark) text = none ↔ mark ∉ text := by
  rw [splitAt?_eq_none_iff]
  constructor
  · intro none member
    simpa using none mark member
  · intro absent c member
    rw [beq_eq_false_iff_ne]
    rintro rfl
    exact absent member

/-- There is a cut exactly when the mark occurs in the text. -/
theorem isSome_cutAt? {mark text : List Char} : (cutAt? mark text).isSome ↔ mark <:+: text := by
  induction text with
  | nil => cases mark <;> simp [cutAt?]
  | cons c rest inductionHypothesis =>
    rw [cutAt?, List.infix_cons_iff, ← inductionHypothesis, ← List.isPrefixOf_iff_prefix]
    split
    next starts => simp [starts]
    next starts => simp [starts]

/-! ### Pieces between separators -/

/-- Adds `c` to the first of `pieces`. -/
def consFirst (c : Char) : List (List Char) → List (List Char)
  | [] => [[c]]
  | piece :: pieces => (c :: piece) :: pieces

/-- All pieces between separators, empty ones included: always one more than there are
separators. -/
def pieces (sep : Char → Bool) (text : List Char) : List (List Char) :=
  text.foldr (fun c rest => if sep c then [] :: rest else consFirst c rest) [[]]

/-- The pieces that are not empty: the maximal runs of characters that do not separate. -/
def runs (sep : Char → Bool) (text : List Char) : List (List Char) :=
  (pieces sep text).filter fun piece => !piece.isEmpty

def words (text : List Char) : List (List Char) :=
  runs isSpace text

theorem pieces_nil (sep : Char → Bool) : pieces sep [] = [[]] := rfl

theorem pieces_cons (sep : Char → Bool) (c : Char) (text : List Char) :
    pieces sep (c :: text) =
      if sep c then [] :: pieces sep text else consFirst c (pieces sep text) := rfl

theorem pieces_ne_nil (sep : Char → Bool) (text : List Char) : pieces sep text ≠ [] := by
  cases text with
  | nil => simp [pieces_nil]
  | cons c rest =>
    rw [pieces_cons]
    split
    · simp
    · cases pieces sep rest <;> simp [consFirst]

/-- No piece holds a separator. -/
theorem not_sep_of_mem_pieces {sep : Char → Bool} {text piece : List Char}
    (member : piece ∈ pieces sep text) : ∀ c ∈ piece, sep c = false := by
  induction text generalizing piece with
  | nil =>
    rw [pieces_nil, List.mem_singleton] at member
    simp [member]
  | cons c rest inductionHypothesis =>
    rw [pieces_cons] at member
    split at member
    · rcases List.mem_cons.mp member with rfl | member
      · simp
      · exact inductionHypothesis member
    · rename_i notSep
      have notSep : sep c = false := by simpa using notSep
      cases shape : pieces sep rest with
      | nil => exact absurd shape (pieces_ne_nil sep rest)
      | cons first others =>
        rw [shape, consFirst] at member
        have earlier : ∀ p ∈ first :: others, ∀ d ∈ p, sep d = false := fun p mem =>
          inductionHypothesis (shape ▸ mem)
        rcases List.mem_cons.mp member with rfl | member
        · intro d mem
          rcases List.mem_cons.mp mem with rfl | mem
          · exact notSep
          · exact earlier first List.mem_cons_self d mem
        · exact earlier piece (List.mem_cons_of_mem _ member)

theorem flatten_consFirst (c : Char) (pieces : List (List Char)) :
    (consFirst c pieces).flatten = c :: pieces.flatten := by
  cases pieces <;> rfl

/-- The pieces hold every character but the separators. -/
theorem flatten_pieces (sep : Char → Bool) (text : List Char) :
    (pieces sep text).flatten = text.filter (!sep ·) := by
  induction text with
  | nil => rfl
  | cons c rest inductionHypothesis =>
    rw [pieces_cons]
    split
    next separates =>
      rw [List.flatten_cons, List.nil_append, inductionHypothesis,
        List.filter_cons_of_neg (by simp [separates])]
    next notSep =>
      rw [flatten_consFirst, inductionHypothesis, List.filter_cons_of_pos (by simp [notSep])]

theorem flatten_runs (sep : Char → Bool) (text : List Char) :
    (runs sep text).flatten = text.filter (!sep ·) := by
  rw [runs, List.flatten_filter_not_isEmpty, flatten_pieces]

/-! ### Lines -/

/-- Cuts a sequence after each break. A line is what stands before a break; what follows the last
break is a line of its own only if it is not empty. -/
def linesBy {α : Type} (isBreak : α → Bool) (items : List α) : List (List α) :=
  items.foldr
    (fun item rest =>
      if isBreak item then [] :: rest
      else match rest with
        | [] => [[item]]
        | line :: lines => (item :: line) :: lines)
    []

/-- Lines are independent of what follows a break. -/
theorem linesBy_append_break {α : Type} {isBreak : α → Bool} {b : α} (breaks : isBreak b = true)
    (before after : List α) :
    linesBy isBreak (before ++ b :: after) =
      linesBy isBreak (before ++ [b]) ++ linesBy isBreak after := by
  induction before with
  | nil => simp [linesBy, breaks]
  | cons item before inductionHypothesis =>
    simp only [linesBy, List.cons_append, List.foldr_cons] at inductionHypothesis ⊢
    rw [inductionHypothesis]
    split
    · rfl
    · cases shape : List.foldr _ [] (before ++ [b]) with
      | nil =>
        exfalso
        cases before with
        | nil => simp [breaks] at shape
        | cons c rest =>
          simp only [List.cons_append, List.foldr_cons] at shape
          split at shape
          · simp at shape
          · split at shape <;> simp at shape
      | cons line lines => simp

/-! ### Underscores -/

/-- Drops every underscore that stands right before a blank. -/
def dropUnderscoreBeforeBlank : List Char → List Char
  | '_' :: ' ' :: rest => ' ' :: dropUnderscoreBeforeBlank rest
  | c :: rest => c :: dropUnderscoreBeforeBlank rest
  | [] => []

/-- Writes a blank for every underscore. -/
def blankUnderscores (text : List Char) : List Char :=
  text.map fun c => if c = '_' then ' ' else c

end Codebook.Text
