/-
This file says that splitting loses nothing of a text but white space. A sentence reaches over its
mark and the character behind it, the next one starts at the capital or quote that follows, and
whatever lies between is white space. Main statement: under the widest bounds the sentences make up
the text again, with white space in between, and any other bounds choose from these sentences by
their length (`Sentences.split_loses_only_space`).
-/

import Codebook.Proofs.SentenceSearch

namespace Codebook.Sentences

open Text

/-! ### Sentences in a row -/

/-- Sentences make up a text: they stand in it one behind the other, with nothing but white space
between them, and with nothing in front of the first or behind the last. -/
inductive MakeUp : List (List Char) → List Char → Prop
  | nil : MakeUp [] []
  | single (sentence : List Char) : MakeUp [sentence] sentence
  | cons (sentence gap : List Char) (blank : ∀ c ∈ gap, isSpace c = true) {next : List Char}
    {others : List (List Char)} {rest : List Char} (makeUp : MakeUp (next :: others) rest) :
    MakeUp (sentence :: next :: others) (sentence ++ (gap ++ rest))

namespace MakeUp

variable {sentences : List (List Char)} {text : List Char}

/-- What makes up some text is not nothing. -/
theorem ne_nil (makeUp : MakeUp sentences text) (nonempty : text ≠ []) : sentences ≠ [] := by
  cases makeUp with
  | nil => exact absurd rfl nonempty
  | single sentence => exact List.cons_ne_nil _ _
  | cons sentence gap blank makeUp => exact List.cons_ne_nil _ _

theorem length_le (makeUp : MakeUp sentences text) :
    ∀ sentence ∈ sentences, sentence.length ≤ text.length := by
  induction makeUp with
  | nil => exact fun _ member => absurd member List.not_mem_nil
  | single sentence => exact List.forall_mem_singleton.mpr (Nat.le_refl _)
  | cons sentence gap blank makeUp inductionHypothesis =>
    rw [List.length_append, List.length_append]
    refine List.forall_mem_cons.mpr ⟨Nat.le_add_right _ _, fun other member => ?_⟩
    have inRest := inductionHypothesis other member
    omega

end MakeUp

/-! ### Between two sentences -/

section Gap

variable {text : List Char} {i : Nat}

theorem isCandidate_of_nextCandidate? {offset : Nat}
    (found : nextCandidate? text offset = some i) : IsCandidate text i := by
  simpa using List.find?_some found

/-- The white space behind a mark reaches up to the opening of the next sentence. -/
theorem span_openingAfter (text : List Char) (i : Nat) :
    span text (i + 1) (openingAfter text i) = (text.drop (i + 1)).takeWhile isSpace := by
  rw [span, List.drop_take, openingAfter, Nat.add_sub_cancel_left]
  exact (List.prefix_iff_eq_take.mp (List.takeWhile_prefix _)).symm

/-- All of it but the first character, which belongs to the sentence, is the gap. -/
theorem isSpace_of_mem_gap (text : List Char) (i : Nat) :
    ∀ c ∈ span text (i + 2) (openingAfter text i), isSpace c = true := by
  intro c member
  have inside : c ∈ span text (i + 1) (openingAfter text i) :=
    (List.drop_sublist_drop_left _ (Nat.le_succ (i + 1))).subset member
  rw [span_openingAfter] at inside
  exact List.mem_takeWhile_imp inside

/-- A text is the sentence up to a mark, the gap, and what starts with the next sentence. -/
theorem append_gap (candidate : IsCandidate text i) :
    text.take (i + 2) ++ (span text (i + 2) (openingAfter text i) ++
      text.drop (openingAfter text i)) = text := by
  have upToMark : (text.take (openingAfter text i)).take (i + 2) = text.take (i + 2) := by
    rw [List.take_take, Nat.min_eq_left candidate.2.1]
  rw [← upToMark, span, ← List.append_assoc, List.take_append_drop, List.take_append_drop]

theorem drop_openingAfter_ne_nil (candidate : IsCandidate text i) :
    text.drop (openingAfter text i) ≠ [] := by
  intro atEnd
  have opening := candidate.2.2
  rw [List.getElem?_eq_none (List.drop_eq_nil_iff.mp atEnd)] at opening
  cases opening

end Gap

/-! ### Texts -/

/-- What is found in a text makes it up. An empty text is no sentence. -/
theorem makeUp_of_search {text : List Char} {offset : Nat} {sentences : List (List Char)}
    (searched : search text offset = .ok sentences) :
    MakeUp (sentences.filter (!·.isEmpty)) text := by
  fun_induction search text offset generalizing sentences with
  | case1 text offset missing =>
    rw [← Except.ok.inj searched]
    cases text with
    | nil => exact .nil
    | cons c rest => exact .single (c :: rest)
  | case2 text offset i found inside fault ends => cases searched
  | case3 text offset i found inside ends inductionHypothesis =>
    exact inductionHypothesis searched
  | case4 text offset i found inside ends inductionHypothesis =>
    have candidate := isCandidate_of_nextCandidate? found
    cases remaining : search (text.drop (openingAfter text i)) 0 with
    | error fault => simp [remaining, Except.map] at searched
    | ok others =>
      rw [remaining, Except.map, Except.ok.injEq] at searched
      -- what remains is not empty, so that another sentence follows this one
      have makeUp := inductionHypothesis remaining
      have first : (!(text.take (i + 2)).isEmpty) = true := by
        cases text with
        | nil => cases inside
        | cons c rest => rfl
      obtain ⟨next, later, shape⟩ :=
        List.exists_cons_of_ne_nil (makeUp.ne_nil (drop_openingAfter_ne_nil candidate))
      rw [← searched, List.filter_cons, if_pos first, shape]
      rw [shape] at makeUp
      have whole := makeUp.cons (text.take (i + 2)) _ (isSpace_of_mem_gap text i)
      rwa [append_gap candidate] at whole

theorem makeUp_of_all {text : List Char} {sentences : List (List Char)}
    (splits : all text = .ok sentences) : MakeUp (sentences.filter (!·.isEmpty)) text := by
  rw [all_eq_search] at splits
  exact makeUp_of_search splits

/-- The widest bounds that can be set. -/
def widest : LengthBounds :=
  ⟨0, UInt64.size - 1⟩

/-- The widest bounds keep whatever is not empty, in any text that fits into memory. -/
theorem keeps_widest {text : List Char} (fits : text.length < widest.max)
    {sentences : List (List Char)} (makeUp : MakeUp (sentences.filter (!·.isEmpty)) text) :
    sentences.filter widest.keeps = sentences.filter (!·.isEmpty) := by
  refine List.filter_congr fun sentence member => ?_
  cases sentence with
  | nil => rfl
  | cons c rest =>
    have notLonger := makeUp.length_le (c :: rest) (List.mem_filter.mpr ⟨member, rfl⟩)
    have short : (c :: rest).length < widest.max := Nat.lt_of_le_of_lt notLonger fits
    rw [LengthBounds.keeps, decide_eq_true short, Bool.and_true]
    exact decide_eq_true (Nat.succ_pos _)

/-- Bounds keep nothing that is empty. -/
theorem filter_keeps (bounds : LengthBounds) (sentences : List (List Char)) :
    (sentences.filter (!·.isEmpty)).filter
        (fun sentence => bounds.min < sentence.length ∧ sentence.length < bounds.max) =
      sentences.filter bounds.keeps := by
  rw [List.filter_filter]
  refine List.filter_congr fun sentence _ => ?_
  cases sentence <;> simp [LengthBounds.keeps]

/-- If a text can be split at all, then it can be split with any bounds. There are sentences that
make it up, of which bounds, even reversed ones, choose those whose lengths lie strictly between
them. The widest bounds choose all of them, since a text that fits into memory is shorter. -/
theorem split_loses_only_space {text : List Char} {bounds : LengthBounds} {kept : List (List Char)}
    (splits : split bounds text = .ok kept) :
    ∃ sentences, MakeUp sentences text ∧
      (text.length < widest.max → split widest text = .ok sentences) ∧
      ∀ other : LengthBounds, split other text = .ok (sentences.filter fun sentence =>
        other.min < sentence.length ∧ sentence.length < other.max) := by
  rw [split] at splits
  cases whole : all text with
  | error fault => simp [whole, Except.map] at splits
  | ok sentences =>
    have makeUp := makeUp_of_all whole
    refine ⟨sentences.filter (!·.isEmpty), makeUp, fun fits => ?_, fun other => ?_⟩
    · rw [split, whole, Except.map, keeps_widest fits makeUp]
    · rw [split, whole, Except.map, filter_keeps]

/-- A text with long gaps, one of which starts with a wide space. -/
def gapText : List Char :=
  "He ran. \n\t She (Ms. Day) sat!\u2003 \"Why?\"".toList

theorem split_gapText :
    gapText.length < widest.max ∧
      split ⟨10, 9⟩ gapText = .ok [] ∧
      MakeUp ["He ran. ".toList, "She (Ms. Day) sat!\u2003".toList, "\"Why?\"".toList] gapText ∧
      split ⟨6, 9⟩ gapText = .ok ["He ran. ".toList] := by
  have fits : gapText.length < widest.max := by decide +kernel
  have none : split ⟨10, 9⟩ gapText = .ok [] := by decide +kernel
  have all : split widest gapText =
      .ok ["He ran. ".toList, "She (Ms. Day) sat!\u2003".toList, "\"Why?\"".toList] := by
    decide +kernel
  obtain ⟨sentences, makeUp, chosenWidest, chosen⟩ := split_loses_only_space none
  obtain rfl := Except.ok.inj (all.symm.trans (chosenWidest fits))
  refine ⟨fits, none, makeUp, (chosen ⟨6, 9⟩).trans ?_⟩
  decide +kernel

end Codebook.Sentences
