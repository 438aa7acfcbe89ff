/-
This file says where texts are split into sentences. Every position of a text is visited once, from
left to right, and the text is split at each mark that may end a sentence and is not refused in the
sentence it stands in (`Sentences.splitPoints`). Main statement: whenever a text can be split, its
sentences are what lies between these positions, and all of them but the last have their
parentheses and quotations closed (`Sentences.split_eq_cut`).
-/

import Codebook.Proofs.SentenceSearch

namespace Codebook.Sentences

open Text

/-! ### Split points -/

/-- The split points among `positions`, visited in their order, when the current sentence starts at
`start`. Behind a split point the next sentence starts at the capital or quote. -/
def splitsAmong (text : List Char) (start : Nat) : List Nat → List Nat
  | [] => []
  | i :: rest =>
    if IsCandidate text i ∧ ¬ IsRefused text start i then
      i :: splitsAmong text (openingAfter text i) rest
    else splitsAmong text start rest

/-- The split points of a text. -/
def splitPoints (text : List Char) : List Nat :=
  splitsAmong text 0 (List.range text.length)

/-- The parts of a text from `start` on. Each reaches over its split point and the white space
character behind it, and the last one up to the end. -/
def cut (text : List Char) (start : Nat) : List Nat → List (List Char)
  | [] => [text.drop start]
  | i :: rest => span text start (i + 2) :: cut text (openingAfter text i) rest

/-! ### The split points of a text -/

theorem splitsAmong_pass {text : List Char} {start i : Nat} (count : Nat)
    (passed : ¬ (IsCandidate text i ∧ ¬ IsRefused text start i)) :
    splitsAmong text start (List.range' i (count + 1)) =
      splitsAmong text start (List.range' (i + 1) count) := by
  rw [List.range'_succ, splitsAmong, if_neg passed]

theorem splitsAmong_accept {text : List Char} {start i : Nat} (count : Nat)
    (candidate : IsCandidate text i) (accepted : ¬ IsRefused text start i) :
    splitsAmong text start (List.range' i (count + 1)) =
      i :: splitsAmong text (openingAfter text i) (List.range' (i + 1) count) := by
  rw [List.range'_succ, splitsAmong, if_pos ⟨candidate, accepted⟩]

/-- Where the splitting of a text stands at position `i`: inside the sentence that starts at
`start`, or in the white space before that sentence. -/
def Stands (text : List Char) (start i : Nat) (rest : List Char) : Place → Prop
  | .inside backwards =>
    ∃ front, text = front ++ (backwards.reverse ++ rest) ∧ start = front.length ∧
      i = front.length + backwards.length ∧ ∀ last ∈ front.getLast?, isSpace last = true
  | .between =>
    ∃ front spaces opening behind, text = front ++ rest ∧ i = front.length ∧
      rest = spaces ++ opening :: behind ∧ (∀ c ∈ spaces, isSpace c = true) ∧
      isOpening opening = true ∧ start = front.length + spaces.length ∧
      ∀ last ∈ (front ++ spaces).getLast?, isSpace last = true

theorem Stands.read {text rest backwards : List Char} {start i : Nat} {c : Char}
    (stands : Stands text start i (c :: rest) (.inside backwards)) :
    Stands text start (i + 1) rest (.inside (c :: backwards)) := by
  obtain ⟨front, shape, atFront, rfl, edge⟩ := stands
  exact ⟨front, by simp [shape], atFront, by simp [Nat.add_assoc], edge⟩

theorem Stands.isCandidate_iff {text rest backwards : List Char} {start i : Nat} {c : Char}
    (stands : Stands text start i (c :: rest) (.inside backwards)) :
    IsCandidate text i ↔ (isTerminal c && opensNext rest) = true := by
  obtain ⟨front, shape, -, rfl, -⟩ := stands
  have position : front.length + backwards.length = (front ++ backwards.reverse).length := by simp
  rw [position, Sentences.isCandidate_iff (by rw [shape, List.append_assoc])]

/-- A split leads into the white space behind the mark. -/
theorem Stands.split {text rest backwards : List Char} {start i : Nat} {c : Char}
    (stands : Stands text start i (c :: rest) (.inside backwards))
    (opens : opensNext rest = true) :
    Stands text (openingAfter text i) (i + 1) rest .between := by
  obtain ⟨front, shape, -, rfl, -⟩ := stands
  obtain ⟨someSpace, opening⟩ := opensNext_iff.mp opens
  obtain ⟨first, isFirst, opens⟩ := (Option.any_eq_true ..).mp opening
  obtain ⟨behind, tail⟩ := List.head?_eq_some_iff.mp isFirst
  have position : front.length + backwards.length = (front ++ backwards.reverse).length := by simp
  have shape' : text = front ++ backwards.reverse ++ c :: rest := by
    rw [shape, List.append_assoc]
  refine ⟨front ++ backwards.reverse ++ [c], rest.takeWhile isSpace, first, behind,
    by rw [shape', List.append_cons], by simp [Nat.add_assoc], ?_,
    fun d member => List.mem_takeWhile_imp member, opens, ?_, fun last isLast => ?_⟩
  · rw [← tail, List.takeWhile_append_dropWhile]
  · rw [position, openingAfter_eq shape']
    simp [Nat.add_assoc]
  · have nonempty := List.ne_nil_of_length_pos someSpace
    rw [List.getLast?_append_of_ne_nil _ nonempty] at isLast
    exact List.mem_takeWhile_imp (List.mem_of_getLast? isLast)

theorem Stands.getElem?_between {text rest : List Char} {start i : Nat} {c : Char}
    (stands : Stands text start i (c :: rest) .between) : text[i]? = some c := by
  obtain ⟨front, -, -, -, rfl, rfl, -⟩ := stands
  simp

theorem Stands.skip {text rest : List Char} {start i : Nat} {c : Char}
    (stands : Stands text start i (c :: rest) .between) (space : isSpace c = true) :
    Stands text start (i + 1) rest .between := by
  obtain ⟨front, spaces, opening, behind, shape, rfl, tail, blank, opens, rfl, edge⟩ := stands
  rcases spaces with _ | ⟨first, others⟩
  · obtain ⟨rfl, -⟩ := List.cons.inj tail
    exact absurd (isSpace_of_isOpening opens) (by simp [space])
  · obtain ⟨rfl, inner⟩ := List.cons.inj tail
    exact ⟨front ++ [c], others, opening, behind, by simp [shape], by simp, inner,
      fun d member => blank d (List.mem_cons_of_mem _ member), opens,
      by simp [Nat.add_assoc, Nat.add_comm 1], by simpa using edge⟩

theorem Stands.start {text rest : List Char} {start i : Nat} {c : Char}
    (stands : Stands text start i (c :: rest) .between) (noSpace : isSpace c ≠ true) :
    Stands text start (i + 1) rest (.inside [c]) ∧ isOpening c = true := by
  obtain ⟨front, spaces, opening, behind, shape, rfl, tail, blank, opens, rfl, edge⟩ := stands
  rcases spaces with _ | ⟨first, others⟩
  · obtain ⟨rfl, rfl⟩ := List.cons.inj tail
    exact ⟨⟨front, by simp [shape], rfl, rfl, by simpa using edge⟩, opens⟩
  · obtain ⟨rfl, -⟩ := List.cons.inj tail
    exact absurd (blank c List.mem_cons_self) noSpace

theorem splitFrom_eq_cut {text : List Char} {done : List (List Char)} {place : Place}
    {rest : List Char} {start i : Nat} (stands : Stands text start i rest place)
    {sentences : List (List Char)} (split : splitFrom done place rest = .ok sentences) :
    sentences =
      done.reverse ++ cut text start (splitsAmong text start (List.range' i rest.length)) := by
  fun_induction splitFrom done place rest generalizing start i with
  | case1 done backwards =>
    obtain ⟨front, shape, rfl, -, -⟩ := stands
    rw [← Except.ok.inj split, List.reverse_cons, shape]
    simp [splitsAmong, cut]
  | case2 done =>
    obtain ⟨front, spaces, opening, behind, -, -, shape, -⟩ := stands
    simp at shape
  | case3 done backwards c rest candidate fault ends => cases split
  | case4 done backwards c rest candidate ends inductionHypothesis =>
    rw [inductionHypothesis stands.read split, List.length_cons, splitsAmong_pass]
    rintro ⟨-, accepted⟩
    obtain ⟨front, shape, rfl, rfl, edge⟩ := stands
    exact Bool.false_ne_true ((endsWith_iff shape edge ends).mpr accepted)
  | case5 done backwards c rest candidate ends inductionHypothesis =>
    have isCandidate := stands.isCandidate_iff.mpr candidate
    have next := stands.split (Bool.and_eq_true_iff.mp candidate).2
    obtain ⟨front, shape, rfl, rfl, edge⟩ := stands
    have accepted := (endsWith_iff shape edge ends).mp rfl
    rw [inductionHypothesis next split, List.length_cons, splitsAmong_accept _ isCandidate accepted,
      cut, span_sentence shape, List.reverse_cons, List.append_assoc, List.singleton_append]
  | case6 done backwards c rest candidate inductionHypothesis =>
    rw [inductionHypothesis stands.read split, List.length_cons, splitsAmong_pass]
    exact fun accepted => candidate (stands.isCandidate_iff.mp accepted.1)
  | case7 done c rest space inductionHypothesis =>
    rw [inductionHypothesis (stands.skip space) split, List.length_cons, splitsAmong_pass]
    exact fun accepted =>
      not_isCandidate stands.getElem?_between (isTerminal_of_isSpace space) accepted.1
  | case8 done c rest space inductionHypothesis =>
    obtain ⟨next, opening⟩ := stands.start space
    rw [inductionHypothesis next split, List.length_cons, splitsAmong_pass]
    exact fun accepted =>
      not_isCandidate stands.getElem?_between (isTerminal_of_isOpening opening) accepted.1

/-- The sentences of a text are what lies between its split points. -/
theorem all_eq_cut {text : List Char} {sentences : List (List Char)}
    (split : all text = .ok sentences) : sentences = cut text 0 (splitPoints text) := by
  have atStart : Stands text 0 0 text (.inside []) := ⟨[], rfl, rfl, rfl, by simp⟩
  rw [splitFrom_eq_cut atStart split, splitPoints, List.range_eq_range']
  rfl

/-! ### No mark is passed over -/

/-- The start of the sentence that holds position `i`, if a text is split at `splits` and its first
sentence starts at `start`. -/
def sentenceStart (text : List Char) (start : Nat) (splits : List Nat) (i : Nat) : Nat :=
  (splits.filter (· < i)).getLast?.elim start (openingAfter text)

theorem splitsAmong_sublist (text : List Char) (start : Nat) (positions : List Nat) :
    (splitsAmong text start positions).Sublist positions := by
  induction positions generalizing start with
  | nil => exact List.Sublist.slnil
  | cons i rest inductionHypothesis =>
    rw [splitsAmong]
    split
    · exact (inductionHypothesis _).cons_cons i
    · exact (inductionHypothesis _).cons i

theorem sentenceStart_of_le {text : List Char} {start i : Nat} {splits : List Nat}
    (later : ∀ split ∈ splits, i ≤ split) : sentenceStart text start splits i = start := by
  have none : splits.filter (· < i) = [] := by
    simpa [List.filter_eq_nil_iff] using later
  rw [sentenceStart, none]
  rfl

theorem sentenceStart_cons {text : List Char} {start first i : Nat} (splits : List Nat)
    (before : first < i) :
    sentenceStart text start (first :: splits) i =
      sentenceStart text (openingAfter text first) splits i := by
  rw [sentenceStart, List.filter_cons_of_pos (by simpa using before), List.getLast?_cons,
    sentenceStart]
  cases (splits.filter (· < i)).getLast? <;> rfl

theorem mem_splitsAmong {text : List Char} {start i : Nat} {positions : List Nat}
    (ascending : positions.Pairwise (· < ·)) :
    i ∈ splitsAmong text start positions ↔ i ∈ positions ∧ IsCandidate text i ∧
      ¬ IsRefused text (sentenceStart text start (splitsAmong text start positions) i) i := by
  induction positions generalizing start with
  | nil => simp [splitsAmong]
  | cons first rest inductionHypothesis =>
    obtain ⟨below, restAscending⟩ := List.pairwise_cons.mp ascending
    have later (start : Nat) : ∀ split ∈ splitsAmong text start rest, first < split :=
      fun split member => below split ((splitsAmong_sublist text start rest).subset member)
    rw [splitsAmong]
    split
    next accepted =>
      by_cases same : i = first
      · subst same
        rw [sentenceStart_of_le (List.forall_mem_cons.mpr
          ⟨Nat.le_refl i, fun split member => Nat.le_of_lt (later _ split member)⟩)]
        simpa using accepted
      · rw [List.mem_cons, List.mem_cons, or_iff_right same, or_iff_right same,
          inductionHypothesis restAscending]
        exact and_congr_right fun member => by rw [sentenceStart_cons _ (below i member)]
    next passed =>
      by_cases same : i = first
      · subst same
        have missing : i ∉ splitsAmong text start rest := fun member =>
          Nat.lt_irrefl i (later start i member)
        rw [sentenceStart_of_le fun split member => Nat.le_of_lt (later start split member)]
        exact iff_of_false missing fun accepted => passed accepted.2
      · rw [List.mem_cons, or_iff_right same, inductionHypothesis restAscending]

/-- A text is split at every mark that may end a sentence and is not refused in the sentence it
stands in, whatever happened at the marks before it. -/
theorem mem_splitPoints {text : List Char} {i : Nat} :
    i ∈ splitPoints text ↔ IsCandidate text i ∧
      ¬ IsRefused text (sentenceStart text 0 (splitPoints text) i) i := by
  rw [splitPoints, mem_splitsAmong List.pairwise_lt_range, List.mem_range, and_iff_right_of_imp]
  rintro ⟨⟨marked, -⟩, -⟩
  by_contra outside
  simp [List.getElem?_eq_none (not_lt.mp outside)] at marked

/-! ### Closed sentences -/

/-- What is read of a sentence before its mark is closed. -/
theorem isClosed_of_endsWith {mark : Char} {backwards : List Char}
    (ends : endsWith mark backwards = .ok true) : IsClosed backwards.reverse := by
  have shape : backwards.reverse ++ [mark] = [] ++ (backwards.reverse ++ mark :: []) := rfl
  have accepted := (endsWith_iff shape (by simp) ends).mp rfl
  rw [IsRefused, span_inside shape, not_or, not_not] at accepted
  exact accepted.2

theorem isClosed_sentence {mark : Char} {backwards rest : List Char}
    (candidate : (isTerminal mark && opensNext rest) = true)
    (ends : endsWith mark backwards = .ok true) :
    IsClosed (backwards.reverse ++ mark :: rest.take 1) := by
  obtain ⟨terminal, opens⟩ := Bool.and_eq_true_iff.mp candidate
  rcases rest with _ | ⟨space, rest⟩
  · cases opens
  · have blank : isSpace space = true := (Bool.and_eq_true_iff.mp opens).1
    have closed := isClosed_of_endsWith ends
    have plain (c : Char) (other : isTerminal c = false) (visible : isSpace c = false) :
        (backwards.reverse ++ mark :: (space :: rest).take 1).count c =
          backwards.reverse.count c := by
      have notMark : mark ≠ c := by
        rintro rfl
        rw [terminal] at other
        cases other
      have notSpace : space ≠ c := by
        rintro rfl
        rw [blank] at visible
        cases visible
      simp [notMark, notSpace]
    rwa [IsClosed, plain '(' rfl rfl, plain ')' rfl rfl, plain '"' rfl rfl]

/-- Splitting adds closed sentences only, apart from the last one. -/
theorem isClosed_of_splitFrom {done : List (List Char)} {place : Place} {rest : List Char}
    {sentences : List (List Char)} (split : splitFrom done place rest = .ok sentences)
    (closed : ∀ sentence ∈ done, IsClosed sentence) :
    ∀ sentence ∈ sentences.dropLast, IsClosed sentence := by
  fun_induction splitFrom done place rest with
  | case1 done backwards =>
    rw [← Except.ok.inj split, List.reverse_cons, List.dropLast_concat]
    exact fun sentence member => closed sentence (List.mem_reverse.mp member)
  | case2 done =>
    rw [← Except.ok.inj split]
    exact fun sentence member =>
      closed sentence (List.mem_reverse.mp (List.dropLast_subset _ member))
  | case3 done backwards c rest candidate fault ends => cases split
  | case4 done backwards c rest candidate ends inductionHypothesis =>
    exact inductionHypothesis split closed
  | case5 done backwards c rest candidate ends inductionHypothesis =>
    exact inductionHypothesis split
      (List.forall_mem_cons.mpr ⟨isClosed_sentence candidate ends, closed⟩)
  | case6 done backwards c rest candidate inductionHypothesis =>
    exact inductionHypothesis split closed
  | case7 done c rest space inductionHypothesis => exact inductionHypothesis split closed
  | case8 done c rest space inductionHypothesis => exact inductionHypothesis split closed

/-- Whenever a text can be split, its sentences are what lies between its split points, and the
length bounds only choose among them. A position is a split point exactly if a mark stands there
that may end a sentence and is not refused in the sentence that the split points before it leave.
All sentences but the last have their parentheses and quotations closed. -/
theorem split_eq_cut {bounds : LengthBounds} {text : List Char} {kept : List (List Char)}
    (splits : split bounds text = .ok kept) :
    all text = .ok (cut text 0 (splitPoints text)) ∧
      search text 0 = .ok (cut text 0 (splitPoints text)) ∧
      kept = (cut text 0 (splitPoints text)).filter bounds.keeps ∧
      (∀ i, i ∈ splitPoints text ↔ IsCandidate text i ∧
        ¬ IsRefused text (sentenceStart text 0 (splitPoints text) i) i) ∧
      ∀ sentence ∈ (cut text 0 (splitPoints text)).dropLast, IsClosed sentence := by
  rw [split] at splits
  cases whole : all text with
  | error fault => simp [whole, Except.map] at splits
  | ok sentences =>
    obtain rfl := all_eq_cut whole
    rw [whole, Except.map, Except.ok.injEq] at splits
    exact ⟨rfl, all_eq_search text ▸ whole, splits.symm, fun i => mem_splitPoints,
      isClosed_of_splitFrom whole (by simp)⟩

/-- A text with an abbreviation, an initial, a parenthesis and a quotation. -/
def smithText : List Char :=
  "Dr. J. Smith (of Acme Inc. Ltd) left. \"Wait. Stop!\" He ran? Yes.".toList

theorem split_smithText :
    split ⟨4, 40⟩ smithText = .ok (["Dr. J. Smith (of Acme Inc. Ltd) left. ",
        "\"Wait. Stop!\" He ran? "].map String.toList) ∧
      splitPoints smithText = [36, 58] ∧
      ["Dr. J. Smith (of Acme Inc. Ltd) left. ", "\"Wait. Stop!\" He ran? "].map String.toList =
        (cut smithText 0 (splitPoints smithText)).filter (LengthBounds.keeps ⟨4, 40⟩) ∧
      ∀ sentence ∈ (cut smithText 0 (splitPoints smithText)).dropLast, IsClosed sentence := by
  have splits : split ⟨4, 40⟩ smithText = .ok (["Dr. J. Smith (of Acme Inc. Ltd) left. ",
      "\"Wait. Stop!\" He ran? "].map String.toList) := by
    decide +kernel
  obtain ⟨-, -, chosen, -, closed⟩ := split_eq_cut splits
  exact ⟨splits, by decide +kernel, chosen, closed⟩

end Codebook.Sentences
