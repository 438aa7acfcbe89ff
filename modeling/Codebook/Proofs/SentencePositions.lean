/-
This file describes the marks of a text by their positions. A mark may end a sentence if white space
and then a capital or a double quote follow it (`Sentences.IsCandidate`), and the sentence that it
stands in may refuse it (`Sentences.IsRefused`). Main statements: both can be read off what comes
behind a position and the sentence up to there (`Sentences.isCandidate_iff`,
`Sentences.endsWith_iff`). The word before a mark is taken from the whole text here. It is the same
as in the sentence alone, since white space stands before every sentence but the first.
-/

import Codebook.Sentences
import Mathlib.Data.List.DropRight

namespace Codebook.Sentences

open Text

/-! ### Positions -/

/-- The text from position `start` up to position `stop`. -/
def span (text : List Char) (start stop : Nat) : List Char :=
  (text.take stop).drop start

/-- The position behind the white space that follows position `i`. -/
def openingAfter (text : List Char) (i : Nat) : Nat :=
  i + 1 + ((text.drop (i + 1)).takeWhile isSpace).length

/-- Whether a mark stands at position `i` that may end a sentence: at least one white space
character follows it, and then a capital or a double quote. -/
def IsCandidate (text : List Char) (i : Nat) : Prop :=
  text[i]?.any isTerminal ∧ i + 1 < openingAfter text i ∧ text[openingAfter text i]?.any isOpening

/-- Whether a blank and an uppercase letter stand right before position `i`, both in the sentence
that starts at `start`. -/
def IsInitial (text : List Char) (start i : Nat) : Prop :=
  start + 2 ≤ i ∧ text[i - 2]? = some ' ' ∧ text[i - 1]?.any isUpper

/-- The characters between the last white space before position `i` and that position. -/
def wordBefore (text : List Char) (i : Nat) : List Char :=
  (text.take i).rtakeWhile (!isSpace ·)

/-- Whether the word before position `i` is an abbreviation once a full stop follows it. -/
def IsAbbreviation (text : List Char) (i : Nat) : Prop :=
  String.ofList (lowerChars (wordBefore text i ++ ['.'])) ∈ abbreviations

/-- Whether a text has as many opening as closing parentheses and an even number of quotes. -/
def IsClosed (text : List Char) : Prop :=
  text.count '(' = text.count ')' ∧ text.count '"' % 2 = 0

/-- Whether the mark at position `i` does not end the sentence that starts at `start`. -/
def IsRefused (text : List Char) (start i : Nat) : Prop :=
  text[i]? = some '.' ∧ (IsInitial text start i ∨ IsAbbreviation text i) ∨
    ¬ IsClosed (span text start i)

instance (text : List Char) (i : Nat) : Decidable (IsCandidate text i) :=
  inferInstanceAs (Decidable (_ ∧ _))

instance (text : List Char) (start i : Nat) : Decidable (IsInitial text start i) :=
  inferInstanceAs (Decidable (_ ∧ _))

instance (text : List Char) (i : Nat) : Decidable (IsAbbreviation text i) :=
  inferInstanceAs (Decidable (_ ∈ _))

instance (text : List Char) : Decidable (IsClosed text) :=
  inferInstanceAs (Decidable (_ ∧ _))

instance (text : List Char) (start i : Nat) : Decidable (IsRefused text start i) :=
  inferInstanceAs (Decidable (_ ∨ _))

/-! ### Reading a position off the rest of the text -/

section Position

variable {text front rest : List Char} {c : Char}

theorem head?_dropWhile (keep : Char → Bool) (text : List Char) :
    (text.dropWhile keep).head? = text[(text.takeWhile keep).length]? := by
  induction text with
  | nil => rfl
  | cons c rest inductionHypothesis =>
    cases kept : keep c <;> simp [kept, inductionHypothesis]

theorem openingAfter_eq (shape : text = front ++ c :: rest) :
    openingAfter text front.length = front.length + 1 + (rest.takeWhile isSpace).length := by
  have behind : text.drop (front.length + 1) = rest := by
    rw [shape, List.append_cons, List.drop_left' (by simp)]
  rw [openingAfter, behind]

theorem getElem?_openingAfter (shape : text = front ++ c :: rest) :
    text[openingAfter text front.length]? = (rest.dropWhile isSpace).head? := by
  rw [openingAfter_eq shape, shape, head?_dropWhile,
    List.getElem?_append_right (by omega)]
  simp [show front.length + 1 + (rest.takeWhile isSpace).length - front.length =
    (rest.takeWhile isSpace).length + 1 by omega]

theorem opensNext_iff :
    opensNext rest = true ↔
      0 < (rest.takeWhile isSpace).length ∧ (rest.dropWhile isSpace).head?.any isOpening := by
  cases rest with
  | nil => simp [opensNext]
  | cons c rest =>
    cases space : isSpace c <;> simp [opensNext, space]

theorem isCandidate_iff (shape : text = front ++ c :: rest) :
    IsCandidate text front.length ↔ (isTerminal c && opensNext rest) = true := by
  have here : text[front.length]? = some c := by simp [shape]
  rw [IsCandidate, getElem?_openingAfter shape, openingAfter_eq shape, here, Bool.and_eq_true,
    opensNext_iff]
  simp

theorem not_isCandidate {i : Nat} (here : text[i]? = some c) (noMark : isTerminal c = false) :
    ¬ IsCandidate text i := by
  intro candidate
  simpa [here, noMark] using candidate.1

theorem isTerminal_of_isSpace (space : isSpace c = true) : isTerminal c = false := by
  unfold isTerminal
  by_contra terminal
  simp only [Bool.not_eq_false, Bool.or_eq_true, beq_iff_eq] at terminal
  rcases terminal with (rfl | rfl) | rfl <;> exact absurd space (by decide)

theorem isTerminal_of_isOpening (opening : isOpening c = true) : isTerminal c = false := by
  unfold isTerminal
  by_contra terminal
  simp only [Bool.not_eq_false, Bool.or_eq_true, beq_iff_eq] at terminal
  rcases terminal with (rfl | rfl) | rfl <;> exact absurd opening (by decide)

theorem isSpace_of_isOpening (opening : isOpening c = true) : isSpace c = false := by
  simp only [isOpening, Bool.or_eq_true, Bool.and_eq_true, decide_eq_true_eq, beq_iff_eq] at opening
  rcases opening with ⟨above, below⟩ | rfl
  · have above : 65 ≤ c.toNat := above
    have below : c.toNat ≤ 90 := below
    simp only [isSpace, Bool.or_eq_false_iff, Bool.and_eq_false_iff, decide_eq_false_iff_not,
      beq_eq_false_iff_ne]
    omega
  · decide

end Position

/-! ### Reading the sentence so far off the whole text -/

section Inside

variable {text front backwards rest : List Char} {mark : Char}

theorem take_inside (shape : text = front ++ (backwards.reverse ++ mark :: rest)) :
    text.take (front.length + backwards.length) = front ++ backwards.reverse := by
  rw [shape, ← List.append_assoc, List.take_left' (by simp)]

theorem span_inside (shape : text = front ++ (backwards.reverse ++ mark :: rest)) :
    span text front.length (front.length + backwards.length) = backwards.reverse := by
  rw [span, take_inside shape, List.drop_left]

/-- A sentence includes its mark and the character behind that. -/
theorem span_sentence (shape : text = front ++ (backwards.reverse ++ mark :: rest)) :
    span text front.length (front.length + backwards.length + 2) =
      backwards.reverse ++ mark :: rest.take 1 := by
  have whole : text = (front ++ (backwards.reverse ++ [mark])) ++ rest := by simp [shape]
  have position : front.length + backwards.length + 2 =
      (front ++ (backwards.reverse ++ [mark])).length + 1 := by simp [Nat.add_assoc]
  rw [span, whole, position, List.take_length_add_append, List.append_assoc, List.drop_left,
    List.append_assoc]
  rfl

theorem isInitial_iff (shape : text = front ++ (backwards.reverse ++ mark :: rest)) :
    IsInitial text front.length (front.length + backwards.length) ↔
      endsInInitial backwards = true := by
  match backwards with
  | [] =>
    refine iff_of_false (fun initial => ?_) Bool.false_ne_true
    have inside : front.length + 2 ≤ front.length + 0 := initial.1
    omega
  | [only] =>
    refine iff_of_false (fun initial => ?_) Bool.false_ne_true
    have inside : front.length + 2 ≤ front.length + 1 := initial.1
    omega
  | initial :: blank :: others =>
    have pastBlank : front.length + (initial :: blank :: others).length - 2 =
        (front ++ others.reverse).length := by
      simp only [List.length_cons, List.length_append, List.length_reverse]
      omega
    have pastInitial : front.length + (initial :: blank :: others).length - 1 =
        (front ++ others.reverse ++ [blank]).length := by simp
    have atBlank : text[front.length + (initial :: blank :: others).length - 2]? =
        some blank := by
      rw [pastBlank, shape]
      simp
    have atInitial : text[front.length + (initial :: blank :: others).length - 1]? =
        some initial := by
      rw [pastInitial, shape]
      simp
    rw [IsInitial, atBlank, atInitial]
    by_cases isBlank : blank = ' '
    · simp [isBlank, endsInInitial]
    · simp [isBlank, endsInInitial]

/-- The word before a mark lies within the sentence, since white space stands before that. -/
theorem wordBefore_inside (shape : text = front ++ (backwards.reverse ++ mark :: rest))
    (edge : ∀ last ∈ front.getLast?, isSpace last = true) :
    wordBefore text (front.length + backwards.length) =
      (backwards.takeWhile (!isSpace ·)).reverse := by
  have outside : front.reverse.takeWhile (!isSpace ·) = [] := by
    rcases List.eq_nil_or_concat front with rfl | ⟨inner, last, rfl⟩
    · rfl
    · have isBlank := edge last (by simp)
      simp [isBlank]
  rw [wordBefore, take_inside shape, List.rtakeWhile, List.reverse_append, List.reverse_reverse,
    List.takeWhile_append, outside, List.append_nil]
  split
  next whole => rw [(List.takeWhile_prefix _).eq_of_length whole]
  next => rfl

theorem endsInAbbreviation_iff (shape : text = front ++ (backwards.reverse ++ mark :: rest))
    (edge : ∀ last ∈ front.getLast?, isSpace last = true) {answer : Bool}
    (read : endsInAbbreviation backwards = .ok answer) :
    answer = true ↔ IsAbbreviation text (front.length + backwards.length) := by
  rw [IsAbbreviation, wordBefore_inside shape edge, ← List.contains_iff_mem]
  have same : answer = abbreviations.contains
      (String.ofList (lowerChars ((backwards.takeWhile (!isSpace ·)).reverse ++ ['.']))) := by
    unfold endsInAbbreviation at read
    dsimp only at read
    split at read
    · split at read
      · cases read
      · exact (Except.ok.inj read).symm
    · exact (Except.ok.inj read).symm
  rw [same]

theorem isBalanced_iff : isBalanced backwards = true ↔ IsClosed backwards.reverse := by
  simp [isBalanced, IsClosed]

/-- A mark ends the sentence it stands in exactly if it is not refused there. -/
theorem endsWith_iff (shape : text = front ++ (backwards.reverse ++ mark :: rest))
    (edge : ∀ last ∈ front.getLast?, isSpace last = true) {answer : Bool}
    (read : endsWith mark backwards = .ok answer) :
    answer = true ↔ ¬ IsRefused text front.length (front.length + backwards.length) := by
  have here : text[front.length + backwards.length]? = some mark := by
    rw [shape, ← List.append_assoc]
    simp
  rw [IsRefused, here, span_inside shape, ← isBalanced_iff, isInitial_iff shape]
  unfold endsWith at read
  by_cases stop : mark = '.'
  · rw [if_pos stop] at read
    split at read
    next initial => simp [stop, initial, ← Except.ok.inj read]
    next notInitial =>
      cases word : endsInAbbreviation backwards with
      | error fault => simp [word, bind, Except.bind] at read
      | ok isWord =>
        rw [word] at read
        rw [← endsInAbbreviation_iff shape edge word]
        cases isWord with
        | true => simp [stop, ← Except.ok.inj read]
        | false => simp [notInitial, ← Except.ok.inj read]
  · rw [if_neg stop, Except.ok.injEq] at read
    simp [stop, read]

end Inside

end Codebook.Sentences
