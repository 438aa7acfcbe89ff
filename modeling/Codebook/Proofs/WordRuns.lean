/-
This file says which words a text has. Words are the runs of characters between separators, so they
stay the same when separators are added at the ends or written in another way, and they change one
by one when the text is put into upper case (`Phrase.splitWords_upperChars`). Texts put together
from words, with separators between them, have these words (`Phrase.splitWords_intercalate`).
-/

import Codebook.Phrase
import Codebook.Proofs.UpperCase

namespace Codebook

namespace Text

variable {sep : Char → Bool}

/-! ### Pieces -/

theorem pieces_eq_splitOnP (sep : Char → Bool) (text : List Char) :
    pieces sep text = text.splitOnP sep := by
  induction text with
  | nil => rw [List.splitOnP_nil, pieces_nil]
  | cons c rest inductionHypothesis =>
    rw [pieces_cons, List.splitOnP_cons_eq_if_modifyHead, inductionHypothesis]
    cases shape : rest.splitOnP sep with
    | nil => exact absurd shape (List.splitOnP_ne_nil _ _)
    | cons first others => rfl

theorem pieces_append {c : Char} (separates : sep c) (front back : List Char) :
    pieces sep (front ++ c :: back) = pieces sep front ++ pieces sep back := by
  simp only [pieces_eq_splitOnP]
  exact List.splitOnP_append_cons front back separates

theorem pieces_of_unseparated {text : List Char} (unseparated : ∀ c ∈ text, sep c = false) :
    pieces sep text = [text] := by
  rw [pieces_eq_splitOnP]
  exact List.splitOnP_eq_singleton unseparated

/-- Characters that do not separate go in front of the first piece. -/
theorem pieces_append_of_unseparated {front : List Char}
    (unseparated : ∀ c ∈ front, sep c = false) (back : List Char) :
    pieces sep (front ++ back) = (pieces sep back).modifyHead (front ++ ·) := by
  induction front with
  | nil => exact (congrFun List.modifyHead_id (pieces sep back)).symm
  | cons c rest inductionHypothesis =>
    obtain ⟨goesOn, restUnseparated⟩ := List.forall_mem_cons.mp unseparated
    rw [List.cons_append, pieces_cons, goesOn, if_neg Bool.false_ne_true,
      inductionHypothesis restUnseparated]
    cases shape : pieces sep back with
    | nil => exact absurd shape (pieces_ne_nil sep back)
    | cons first others => rfl

/-- If separators become separators and everything else text without any, then the pieces change one
by one. -/
theorem pieces_flatMap {change : Char → List Char}
    (ofSep : ∀ c, sep c = true → ∃ d, change c = [d] ∧ sep d = true)
    (ofOther : ∀ c, sep c = false → ∀ d ∈ change c, sep d = false) (text : List Char) :
    pieces sep (text.flatMap change) = (pieces sep text).map (·.flatMap change) := by
  induction text with
  | nil => rfl
  | cons c rest inductionHypothesis =>
    rw [List.flatMap_cons, pieces_cons]
    cases separates : sep c with
    | true =>
      obtain ⟨d, changed, separatesToo⟩ := ofSep c separates
      rw [changed, List.singleton_append, pieces_cons, if_pos separatesToo, inductionHypothesis]
      rfl
    | false =>
      rw [pieces_append_of_unseparated (ofOther c separates), inductionHypothesis]
      cases shape : pieces sep rest with
      | nil => exact absurd shape (pieces_ne_nil sep rest)
      | cons first others => rfl

/-- Pieces that are joined by a separator are found again. -/
theorem pieces_intercalate {c : Char} (separates : sep c) {parts : List (List Char)}
    (nonempty : parts ≠ []) (unseparated : ∀ part ∈ parts, ∀ d ∈ part, sep d = false) :
    pieces sep ([c].intercalate parts) = parts := by
  induction parts with
  | nil => exact absurd rfl nonempty
  | cons part rest inductionHypothesis =>
    obtain ⟨partUnseparated, restUnseparated⟩ := List.forall_mem_cons.mp unseparated
    cases rest with
    | nil => simpa using pieces_of_unseparated partUnseparated
    | cons next others =>
      rw [List.intercalate_cons_cons, List.append_assoc, List.singleton_append,
        pieces_append separates, pieces_of_unseparated partUnseparated,
        inductionHypothesis (List.cons_ne_nil next others) restUnseparated,
        List.singleton_append]

theorem intercalate_pieces (c : Char) (text : List Char) :
    [c].intercalate (pieces (· == c) text) = text := by
  rw [pieces_eq_splitOnP]
  exact List.intercalate_splitOn c

/-! ### Runs -/

theorem runs_append {c : Char} (separates : sep c) (front back : List Char) :
    runs sep (front ++ c :: back) = runs sep front ++ runs sep back := by
  rw [runs, pieces_append separates, List.filter_append]
  rfl

theorem runs_of_unseparated {word : List Char} (nonempty : word ≠ [])
    (unseparated : ∀ c ∈ word, sep c = false) : runs sep word = [word] := by
  rw [runs, pieces_of_unseparated unseparated]
  simp [nonempty]

/-- Runs hold at least one character, and no separator. -/
theorem of_mem_runs {text run : List Char} (member : run ∈ runs sep text) :
    run ≠ [] ∧ ∀ c ∈ run, sep c = false := by
  obtain ⟨isPiece, nonempty⟩ := List.mem_filter.mp member
  exact ⟨by simpa using nonempty, not_sep_of_mem_pieces isPiece⟩

theorem mem_of_mem_runs {text run : List Char} (member : run ∈ runs sep text) : run ⊆ text := by
  intro c inRun
  have kept : c ∈ (runs sep text).flatten := List.mem_flatten_of_mem member inRun
  rw [flatten_runs] at kept
  exact (List.mem_filter.mp kept).1

/-- Separators in front do not count. -/
theorem runs_append_left {front : List Char} (separate : ∀ c ∈ front, sep c = true)
    (back : List Char) : runs sep (front ++ back) = runs sep back := by
  induction front with
  | nil => rfl
  | cons c rest inductionHypothesis =>
    obtain ⟨separates, restSeparate⟩ := List.forall_mem_cons.mp separate
    rw [List.cons_append, ← inductionHypothesis restSeparate]
    exact runs_append separates [] (rest ++ back)

/-- Separators at the end do not count. -/
theorem runs_append_right {back : List Char} (separate : ∀ c ∈ back, sep c = true)
    (front : List Char) : runs sep (front ++ back) = runs sep front := by
  cases back with
  | nil => rw [List.append_nil]
  | cons c rest =>
    obtain ⟨separates, restSeparate⟩ := List.forall_mem_cons.mp separate
    rw [runs_append separates, ← List.append_nil rest, runs_append_left restSeparate]
    exact List.append_nil _

theorem runs_trim (ofSpace : ∀ c, isSpace c = true → sep c = true) (text : List Char) :
    runs sep (trim text) = runs sep text := by
  obtain ⟨tail, shape, blank⟩ := exists_append_dropEndWhile isSpace (trimStart text)
  have front : ∀ c ∈ text.takeWhile isSpace, sep c = true := fun c member =>
    ofSpace c (List.all_eq_true.mp List.all_takeWhile c member)
  rw [trim, trimEnd, ← runs_append_right (fun c member => ofSpace c (blank c member)), ← shape,
    trimStart, ← runs_append_left front, List.takeWhile_append_dropWhile]

theorem runs_flatMap {change : Char → List Char}
    (ofSep : ∀ c, sep c = true → ∃ d, change c = [d] ∧ sep d = true)
    (ofOther : ∀ c, sep c = false → change c ≠ [] ∧ ∀ d ∈ change c, sep d = false)
    (text : List Char) :
    runs sep (text.flatMap change) = (runs sep text).map (·.flatMap change) := by
  rw [runs, pieces_flatMap ofSep (fun c other => (ofOther c other).2), runs, List.filter_map]
  congr 1
  refine List.filter_congr fun piece isPiece => ?_
  cases piece with
  | nil => rfl
  | cons c rest =>
    have other := not_sep_of_mem_pieces isPiece c List.mem_cons_self
    simp [(ofOther c other).1]

theorem runs_intercalate {c : Char} (separates : sep c) {words : List (List Char)}
    (areRuns : ∀ word ∈ words, word ≠ [] ∧ ∀ d ∈ word, sep d = false) :
    runs sep ([c].intercalate words) = words := by
  cases words with
  | nil => rfl
  | cons first rest =>
    rw [runs, pieces_intercalate separates (List.cons_ne_nil first rest)
      (fun word member => (areRuns word member).2), List.filter_eq_self]
    exact fun word member => by simpa using (areRuns word member).1

/-- A text that does not end with a separator ends with a run, before which there is nothing or a
separator. -/
theorem exists_append_run {text : List Char} {last : Char} (isLast : text.getLast? = some last)
    (inRun : sep last = false) : ∃ front word : List Char, text = front ++ word ∧ word ≠ [] ∧
      (∀ c ∈ word, sep c = false) ∧ ∀ c ∈ front.getLast?, sep c = true := by
  obtain ⟨word, shape, unseparated⟩ := exists_append_dropEndWhile (fun c => !sep c) text
  have frontEnds : ∀ c ∈ (dropEndWhile (fun c => !sep c) text).getLast?, sep c = true := by
    intro c isEnd
    simpa using not_drop_getLast?_dropEndWhile (fun c => !sep c) text c isEnd
  refine ⟨_, word, shape, ?_, fun c member => by simpa using unseparated c member, frontEnds⟩
  rintro rfl
  rw [List.append_nil] at shape
  rw [← shape] at frontEnds
  rw [frontEnds last isLast] at inRun
  cases inRun

/-- A text that does not end with a separator ends with its last run, which another one may take the
place of. -/
theorem exists_last_run {text : List Char} {last : Char} (isLast : text.getLast? = some last)
    (inRun : sep last = false) : ∃ front word : List Char, text = front ++ word ∧ word ≠ [] ∧
      (∀ c ∈ word, sep c = false) ∧
      ∀ other : List Char, other ≠ [] → (∀ c ∈ other, sep c = false) →
        runs sep (front ++ other) = runs sep front ++ [other] := by
  obtain ⟨front, word, shape, nonempty, unseparated, frontEnds⟩ := exists_append_run isLast inRun
  refine ⟨front, word, shape, nonempty, unseparated, ?_⟩
  intro other otherNonempty otherUnseparated
  rcases List.eq_nil_or_concat front with rfl | ⟨before, c, rfl⟩
  · exact runs_of_unseparated otherNonempty otherUnseparated
  · rw [List.concat_eq_append] at frontEnds ⊢
    have separates : sep c = true := frontEnds c (by simp)
    rw [List.append_assoc, List.singleton_append, runs_append separates,
      runs_of_unseparated otherNonempty otherUnseparated,
      runs_append_right (List.forall_mem_singleton.mpr separates)]

end Text

namespace Phrase

open Text

/-! ### Words of phrases -/

theorem isSeparator_of_isSpace {c : Char} (isBlank : isSpace c = true) : isSeparator c = true := by
  rw [isSeparator, isBlank, Bool.or_true]

theorem ne_underscore_of_isUpper {c : Char} (isCapital : c.isUpper) : c ≠ '_' := by
  rintro rfl
  exact absurd isCapital (by decide)

theorem isSeparator_of_isUpper {c : Char} (isCapital : c.isUpper) : isSeparator c = false := by
  rw [isSeparator, beq_eq_false_iff_ne.mpr (ne_underscore_of_isUpper isCapital),
    isSpace_of_isUpper isCapital, Bool.or_false]

theorem upperChar_of_isSeparator {c : Char} (separates : isSeparator c = true) :
    upperChar c = [c] := by
  rcases Bool.or_eq_true_iff.mp separates with underscore | isBlank
  · rw [eq_of_beq underscore]
    rfl
  · exact upperChar_of_isSpace isBlank

theorem isSeparator_of_mem_upperChar {c d : Char} (member : d ∈ upperChar c) :
    isSeparator d = isSeparator c := by
  have underscore : (d == '_') = (c == '_') := by
    rw [Bool.eq_iff_iff, beq_iff_eq, beq_iff_eq]
    constructor
    · rintro rfl
      exact (mem_upperChar_iff (by decide) (by decide)).mp member
    · rintro rfl
      exact List.mem_singleton.mp member
  rw [isSeparator, isSeparator, isSpace_of_mem_upperChar member, underscore]

/-- In upper case a text has its words in upper case. -/
theorem splitWords_upperChars (text : List Char) :
    splitWords (upperChars text) = (splitWords text).map upper := by
  have words : runs isSeparator (text.flatMap upperChar) =
      (runs isSeparator text).map (·.flatMap upperChar) := by
    refine runs_flatMap (fun c separates => ⟨c, upperChar_of_isSeparator separates, separates⟩)
      (fun c other => ⟨upperChar_ne_nil c, fun d member => ?_⟩) text
    rw [isSeparator_of_mem_upperChar member, other]
  rw [splitWords, upperChars, words, splitWords, List.map_map, List.map_map]
  refine List.map_congr_left fun word _ => ?_
  simp [upper, upperChars]

theorem splitWords_trim (text : List Char) : splitWords (trim text) = splitWords text := by
  rw [splitWords, runs_trim fun _ => isSeparator_of_isSpace, splitWords]

/-- Blanks for underscores change no word. -/
theorem splitWords_blankUnderscores (text : List Char) :
    splitWords (blankUnderscores text) = splitWords text := by
  have words : runs isSeparator (text.flatMap fun c => [if c = '_' then ' ' else c]) =
      (runs isSeparator text).map (·.flatMap fun c => [if c = '_' then ' ' else c]) := by
    refine runs_flatMap (fun c separates => ⟨_, rfl, ?_⟩) (fun c other => ⟨by simp, ?_⟩) text
    · split
      next => rfl
      next => exact separates
    · rw [List.forall_mem_singleton]
      split
      next underscore => rw [underscore] at other; cases other
      next => exact other
  have asChange : blankUnderscores text = text.flatMap fun c => [if c = '_' then ' ' else c] :=
    List.map_eq_flatMap
  rw [splitWords, asChange, words, splitWords, List.map_map]
  refine List.map_congr_left fun word isWord => ?_
  have kept : (word.flatMap fun c => [if c = '_' then ' ' else c]) = word := by
    rw [List.flatMap_congr (g := fun c => [c]), List.flatMap_singleton']
    intro c member
    rw [if_neg]
    rintro rfl
    cases (of_mem_runs isWord).2 '_' member
  rw [Function.comp_apply, kept]

/-- Words that are joined by blanks are found again. -/
theorem splitWords_intercalate {words : List (List Char)}
    (areWords : ∀ word ∈ words, word ≠ [] ∧ ∀ c ∈ word, isSeparator c = false) :
    splitWords ([' '].intercalate words) = words.map String.ofList := by
  rw [splitWords, runs_intercalate (by decide) areWords]

end Phrase

end Codebook
