/-
This file splits texts by repeated search: the next mark that may end a sentence is looked for, from
an offset that moves behind every mark that ends none, in a text that shrinks at every sentence
(`Sentences.search`). Main statement: this gives the sentences that reading the text once gives, so
no mark is lost where a search starts again (`Sentences.all_eq_search`).
-/

import Codebook.Proofs.SentencePositions

namespace Codebook.Sentences

open Text

/-! ### Searching for marks -/

/-- The first position from `offset` on where a mark may end a sentence. -/
def nextCandidate? (text : List Char) (offset : Nat) : Option Nat :=
  (List.range' offset (text.length - offset)).find? (IsCandidate text ·)

theorem nextCandidate?_bounds {text : List Char} {offset i : Nat}
    (found : nextCandidate? text offset = some i) : offset ≤ i ∧ i < text.length := by
  have member := List.mem_range'_1.mp (List.mem_of_find?_eq_some found)
  omega

/-- The sentences of a text, found by searching it for marks from `offset` on. Behind a mark that
ends no sentence the search goes on in the same text; behind one that does it starts anew in what
remains. -/
def search (text : List Char) (offset : Nat) : Except SplitFault (List (List Char)) :=
  match found : nextCandidate? text offset with
  | none => .ok [text]
  | some i =>
    have inside := (nextCandidate?_bounds found).2
    match endsWith text[i] (text.take i).reverse with
    | .error fault => .error fault
    | .ok false => search text (i + 1)
    | .ok true => (search (text.drop (openingAfter text i)) 0).map (text.take (i + 2) :: ·)
termination_by (text.length, text.length - offset)
decreasing_by
  · have := (nextCandidate?_bounds found).1
    exact .right _ (by omega)
  · refine .left _ _ ?_
    rw [List.length_drop, openingAfter]
    omega

theorem search_of_none {text : List Char} {offset : Nat}
    (missing : nextCandidate? text offset = none) : search text offset = .ok [text] := by
  unfold search
  split
  next => rfl
  next i found => simp [missing] at found

theorem search_of_some {text : List Char} {offset i : Nat} {mark : Char}
    (found : nextCandidate? text offset = some i) (here : text[i]? = some mark) :
    search text offset =
      match endsWith mark (text.take i).reverse with
      | .error fault => .error fault
      | .ok false => search text (i + 1)
      | .ok true => (search (text.drop (openingAfter text i)) 0).map (text.take (i + 2) :: ·) := by
  conv_lhs => unfold search
  split
  next missing => simp [missing] at found
  next j same =>
    obtain rfl : j = i := by simpa [same] using found
    obtain ⟨inside, rfl⟩ := List.getElem?_eq_some_iff.mp here
    rfl

theorem search_congr {text : List Char} {offset other : Nat}
    (same : nextCandidate? text offset = nextCandidate? text other) :
    search text offset = search text other := by
  cases found : nextCandidate? text offset with
  | none => rw [search_of_none found, search_of_none (same.symm.trans found)]
  | some i =>
    have here := List.getElem?_eq_getElem (nextCandidate?_bounds found).2
    rw [search_of_some found here]
    exact (search_of_some (same.symm.trans found) here).symm

theorem nextCandidate?_eq (backwards rest : List Char) (c : Char) :
    nextCandidate? (backwards.reverse ++ c :: rest) backwards.length =
      if isTerminal c && opensNext rest then some backwards.length
      else nextCandidate? (backwards.reverse ++ c :: rest) (backwards.length + 1) := by
  have candidate := @isCandidate_iff _ backwards.reverse rest c rfl
  rw [List.length_reverse] at candidate
  have count : (backwards.reverse ++ c :: rest).length - backwards.length = rest.length + 1 := by
    simp
  have count' : (backwards.reverse ++ c :: rest).length - (backwards.length + 1) = rest.length := by
    simp [← Nat.add_assoc]
  rw [nextCandidate?, nextCandidate?, count, count', List.range'_succ, List.find?_cons]
  simp only [candidate]
  cases isTerminal c && opensNext rest <;> rfl

/-- What a search does at the character it looks at next. -/
theorem search_eq (backwards rest : List Char) (c : Char) :
    search (backwards.reverse ++ c :: rest) backwards.length =
      if isTerminal c && opensNext rest then
        match endsWith c backwards with
        | .error fault => .error fault
        | .ok false => search (backwards.reverse ++ c :: rest) (backwards.length + 1)
        | .ok true => (search (rest.dropWhile isSpace) 0).map
            ((backwards.reverse ++ c :: rest.take 1) :: ·)
      else search (backwards.reverse ++ c :: rest) (backwards.length + 1) := by
  have next := nextCandidate?_eq backwards rest c
  split
  next candidate =>
    have here : (backwards.reverse ++ c :: rest)[backwards.length]? = some c := by simp
    have before : ((backwards.reverse ++ c :: rest).take backwards.length).reverse =
        backwards := by simp
    have sentence : (backwards.reverse ++ c :: rest).take (backwards.length + 2) =
        backwards.reverse ++ c :: rest.take 1 := by
      simpa [span] using @span_sentence _ [] backwards rest c rfl
    have remaining : (backwards.reverse ++ c :: rest).drop
        (openingAfter (backwards.reverse ++ c :: rest) backwards.length) =
          rest.dropWhile isSpace := by
      have opening := @openingAfter_eq _ backwards.reverse rest c rfl
      have whole : backwards.reverse ++ c :: rest =
          (backwards.reverse ++ c :: rest.takeWhile isSpace) ++ rest.dropWhile isSpace := by
        rw [List.append_assoc, List.cons_append, List.takeWhile_append_dropWhile]
      rw [List.length_reverse] at opening
      rw [opening, whole, List.drop_left' (by simp [Nat.add_assoc, Nat.add_comm 1])]
    rw [if_pos candidate] at next
    rw [search_of_some next here, before, sentence, remaining]
  next candidate =>
    rw [if_neg candidate] at next
    exact search_congr next

/-- Reading a text once gives the sentences that searching it gives. -/
theorem splitFrom_eq_search (done : List (List Char)) (place : Place) (rest : List Char) :
    match place with
    | .inside backwards => splitFrom done place rest =
        (search (backwards.reverse ++ rest) backwards.length).map (done.reverse ++ ·)
    | .between => (rest.dropWhile isSpace).head?.any isOpening → splitFrom done place rest =
        (search (rest.dropWhile isSpace) 0).map (done.reverse ++ ·) := by
  fun_induction splitFrom done place rest with
  | case1 done backwards =>
    dsimp only
    rw [search_of_none (by simp [nextCandidate?])]
    simp [Except.map]
  | case2 done => simp
  | case3 done backwards c rest candidate fault ends =>
    dsimp only
    rw [search_eq, if_pos candidate, ends]
    rfl
  | case4 done backwards c rest candidate ends inductionHypothesis =>
    dsimp only at inductionHypothesis ⊢
    rw [search_eq, if_pos candidate, ends, inductionHypothesis]
    simp
  | case5 done backwards c rest candidate ends inductionHypothesis =>
    dsimp only at inductionHypothesis ⊢
    have opening := (opensNext_iff.mp (Bool.and_eq_true_iff.mp candidate).2).2
    rw [search_eq, if_pos candidate, ends, inductionHypothesis opening]
    cases search (rest.dropWhile isSpace) 0 <;> simp [Except.map]
  | case6 done backwards c rest candidate inductionHypothesis =>
    dsimp only at inductionHypothesis ⊢
    rw [search_eq, if_neg candidate, inductionHypothesis]
    simp
  | case7 done c rest space inductionHypothesis =>
    dsimp only at inductionHypothesis ⊢
    simpa [space] using inductionHypothesis
  | case8 done c rest space inductionHypothesis =>
    dsimp only at inductionHypothesis ⊢
    intro opening
    have remaining : (c :: rest).dropWhile isSpace = c :: rest := by simp [space]
    have opens : isOpening c = true := by simpa [space] using opening
    have atStart := search_eq [] rest c
    simp only [isTerminal_of_isOpening opens] at atStart
    rw [inductionHypothesis, remaining]
    simpa using congrArg (Except.map (done.reverse ++ ·)) atStart.symm

/-- Searching a text from its start gives all its sentences. -/
theorem all_eq_search (text : List Char) : all text = search text 0 := by
  have whole := splitFrom_eq_search [] (.inside []) text
  dsimp only [List.reverse_nil, List.nil_append, List.length_nil] at whole
  rw [all, whole]
  cases search text 0 <;> rfl

end Codebook.Sentences
