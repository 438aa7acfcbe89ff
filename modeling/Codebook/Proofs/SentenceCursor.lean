/-
This file walks through a text with a cursor, which holds the text that remains and the offset of
the byte from which the next mark is looked for. Main statements: a turn of the cursor is a step of
the search by positions, and the only slice that can fail is the word before a full stop
(`Sentences.Cursor.turn_of_some`); a walk comes to an end, and its sentences are those that
searching gives (`Sentences.Cursor.leads_of_search`).
-/

import Codebook.Proofs.SentenceSlices
import Codebook.Proofs.SentenceGaps

namespace Codebook.Sentences

open Text

/-! ### The cursor -/

/-- A mark that may end a sentence, as it is found: with white space and an opening behind it. It
starts at the byte `start`, and the opening ends before the byte `stop`. -/
structure Match where
  start : Nat
  stop : Nat
deriving DecidableEq, Repr

/-- The first match that starts at byte `offset` of a text or later. The characters are those from
byte `position` of the text on. -/
def nextMatch? (offset position : Nat) : List Char → Option Match
  | [] => none
  | c :: rest =>
    if offset ≤ position ∧ (isTerminal c && opensNext rest) then
      some ⟨position, position + 1 + byteCount (rest.takeWhile isSpace) + 1⟩
    else nextMatch? offset (position + c.utf8Size) rest

/-- Where a walk through a text stands: the text that remains, and the byte in it from which the
next mark is looked for. -/
structure Cursor where
  rest : List Char
  offset : Nat
deriving DecidableEq, Repr

/-- What a turn of a cursor comes to: a mark that ends no sentence is passed, a sentence is cut off,
or the text that remains is the last one. -/
inductive Turn
  | refused (next : Cursor)
  | sentence (chars : List Char) (next : Cursor)
  | tail (chars : List Char)
deriving DecidableEq, Repr

namespace Cursor

def turn (cursor : Cursor) : Except Slice Turn :=
  match nextMatch? cursor.offset 0 cursor.rest with
  | none => .ok (.tail cursor.rest)
  | some found => do
    if ← endsAt cursor.rest found.start then
      let behind ← Slice.behindMark.take cursor.rest (found.start + 1) (byteCount cursor.rest)
      let width := behind.head?.elim 0 Char.utf8Size
      let sentence ← Slice.sentence.take cursor.rest 0 (found.start + 1 + width)
      let remainder ←
        Slice.remainder.take cursor.rest (found.stop - 1) (byteCount cursor.rest)
      return .sentence sentence ⟨remainder, 0⟩
    else return .refused ⟨cursor.rest, found.start + 1⟩

/-- The cursor that looks for a mark from the character at position `i` on. -/
def atChar (text : List Char) (i : Nat) : Cursor :=
  ⟨text, byteCount (text.take i)⟩

/-- A walk leads from one cursor to another, over some sentences. -/
inductive Leads : Cursor → List (List Char) → Cursor → Prop
  | here (cursor : Cursor) : Leads cursor [] cursor
  | refused {cursor next last : Cursor} {sentences : List (List Char)}
    (turn : cursor.turn = .ok (.refused next)) (later : Leads next sentences last) :
    Leads cursor sentences last
  | sentence {cursor next last : Cursor} {chars : List Char} {sentences : List (List Char)}
    (turn : cursor.turn = .ok (.sentence chars next)) (later : Leads next sentences last) :
    Leads cursor (chars :: sentences) last

/-- Whether there is no turn behind this one. -/
def IsAtEnd (cursor : Cursor) : Prop :=
  ∀ next, cursor.turn ≠ .ok (.refused next) ∧ ∀ chars, cursor.turn ≠ .ok (.sentence chars next)

end Cursor

open Cursor in
/-- A walk through a whole text, with its sentences. What remains at its end is the last sentence,
unless the walk breaks off at a slice that cannot be taken. -/
inductive Walk (text : List Char) : List (List Char) → Option Slice → Prop
  | ends {passed : List (List Char)} {last : Cursor} {tail : List Char}
    (leads : Leads (atChar text 0) passed last) (turn : last.turn = .ok (.tail tail)) :
    Walk text (passed ++ [tail]) none
  | breaksOff {passed : List (List Char)} {last : Cursor} {slice : Slice}
    (leads : Leads (atChar text 0) passed last) (turn : last.turn = .error slice) :
    Walk text passed (some slice)

/-! ### Finding marks -/

/-- Characters before the offset are passed. -/
theorem nextMatch?_append {offset position : Nat} {passed : List Char}
    (before : position + byteCount passed ≤ offset) (rest : List Char) :
    nextMatch? offset position (passed ++ rest) =
      nextMatch? offset (position + byteCount passed) rest := by
  induction passed generalizing position with
  | nil => rfl
  | cons c others inductionHypothesis =>
    have size := c.utf8Size_pos
    rw [byteCount_cons] at before ⊢
    rw [List.cons_append, nextMatch?, if_neg (by omega), inductionHypothesis (by omega),
      Nat.add_assoc]

/-- The match of the mark at position `i`. -/
def matchAt (text : List Char) (i : Nat) : Match :=
  ⟨byteCount (text.take i), byteCount (text.take (openingAfter text i)) + 1⟩

theorem take_openingAfter (front rest : List Char) (c : Char) :
    (front ++ c :: rest).take (openingAfter (front ++ c :: rest) front.length) =
      front ++ c :: rest.takeWhile isSpace := by
  have whole : front ++ c :: rest =
      (front ++ c :: rest.takeWhile isSpace) ++ rest.dropWhile isSpace := by
    rw [List.append_assoc, List.cons_append, List.takeWhile_append_dropWhile]
  have position : openingAfter (front ++ c :: rest) front.length =
      (front ++ c :: rest.takeWhile isSpace).length := by
    rw [openingAfter_eq rfl, List.length_append, List.length_cons]
    omega
  rw [position, whole, List.take_left' rfl]

/-- From an offset that has been passed on, the first match is that of the next candidate. -/
theorem nextMatch?_reverse {offset : Nat} {backwards : List Char}
    (passed : offset ≤ byteCount backwards.reverse) (rest : List Char) :
    nextMatch? offset (byteCount backwards.reverse) rest =
      (nextCandidate? (backwards.reverse ++ rest) backwards.length).map
        (matchAt (backwards.reverse ++ rest)) := by
  induction rest generalizing backwards with
  | nil => simp [nextMatch?, nextCandidate?]
  | cons c rest inductionHypothesis =>
    rw [nextMatch?, nextCandidate?_eq]
    by_cases candidate : (isTerminal c && opensNext rest) = true
    · have size := utf8Size_of_isTerminal (Bool.and_eq_true_iff.mp candidate).1
      have upToMark : (backwards.reverse ++ c :: rest).take backwards.length =
          backwards.reverse := List.take_left' List.length_reverse
      have upToOpening := take_openingAfter backwards.reverse rest c
      rw [List.length_reverse] at upToOpening
      rw [if_pos ⟨passed, candidate⟩, if_pos candidate, Option.map_some, matchAt, upToMark,
        upToOpening, byteCount_append, byteCount_cons, size, Nat.add_assoc (byteCount _) 1]
    · have later : (c :: backwards).reverse ++ rest = backwards.reverse ++ c :: rest := by simp
      have position : byteCount (c :: backwards).reverse =
          byteCount backwards.reverse + c.utf8Size := by
        rw [List.reverse_cons, byteCount_append, byteCount_cons, byteCount_nil, Nat.add_zero]
      have next := @inductionHypothesis (c :: backwards) (by omega)
      rw [later, position] at next
      rw [if_neg fun found => candidate found.2, if_neg candidate, next]
      rfl

theorem nextMatch?_eq (text : List Char) {k : Nat} (inside : k ≤ text.length) :
    nextMatch? (byteCount (text.take k)) 0 text =
      (nextCandidate? text k).map (matchAt text) := by
  have search := @nextMatch?_reverse (byteCount (text.take k)) (text.take k).reverse
    (by rw [List.reverse_reverse]) (text.drop k)
  rw [List.reverse_reverse, List.take_append_drop, List.length_reverse,
    List.length_take_of_le inside] at search
  have passed := nextMatch?_append (Nat.le_of_eq (Nat.zero_add (byteCount (text.take k))))
    (text.drop k)
  rw [List.take_append_drop, Nat.zero_add] at passed
  rw [passed, search]

/-! ### A turn -/

namespace Cursor

variable {text : List Char} {k : Nat}

theorem turn_of_none (inside : k ≤ text.length) (missing : nextCandidate? text k = none) :
    (atChar text k).turn = .ok (.tail text) := by
  have search := nextMatch?_eq text inside
  rw [missing, Option.map_none] at search
  unfold turn atChar
  rw [search]

theorem byteCount_take_succ {i : Nat} {c : Char} (here : text[i]? = some c) :
    byteCount (text.take (i + 1)) = byteCount (text.take i) + c.utf8Size := by
  rw [List.take_add_one, here, Option.toList_some, byteCount_append, byteCount_cons, byteCount_nil,
    Nat.add_zero]

/-- A turn finds the next candidate. If its sentence refuses it, the search goes on behind it, and
else anew in what remains behind the sentence. -/
theorem turn_of_some (inside : k ≤ text.length) {i : Nat} {mark : Char}
    (found : nextCandidate? text k = some i) (here : text[i]? = some mark) :
    (atChar text k).turn =
      match endsWith mark (text.take i).reverse with
      | .error _ => .error .word
      | .ok false => .ok (.refused (atChar text (i + 1)))
      | .ok true =>
        .ok (.sentence (text.take (i + 2)) (atChar (text.drop (openingAfter text i)) 0)) := by
  have search := nextMatch?_eq text inside
  rw [found, Option.map_some] at search
  have shape : text = text.take i ++ mark :: text.drop (i + 1) := by
    obtain ⟨position, rfl⟩ := List.getElem?_eq_some_iff.mp here
    simp
  have candidate := isCandidate_iff shape
  rw [List.length_take_of_le (Nat.le_of_lt (nextCandidate?_bounds found).2)] at candidate
  obtain ⟨terminal, opens⟩ :=
    Bool.and_eq_true_iff.mp (candidate.mp (isCandidate_of_nextCandidate? found))
  have ends := endsAt_eq (text.take i) (text.drop (i + 1)) terminal
  have pastMark := byteCount_take_succ here
  rw [← shape] at ends
  rw [utf8Size_of_isTerminal terminal] at pastMark
  unfold turn
  rw [atChar, search]
  dsimp only [matchAt]
  rw [ends]
  cases endsWith mark (text.take i).reverse with
  | error fault => rfl
  | ok answer =>
    cases answer with
    | false =>
      rw [atChar, pastMark]
      rfl
    | true =>
      obtain ⟨space, others, behind⟩ : ∃ space others, text.drop (i + 1) = space :: others := by
        cases tail : text.drop (i + 1) with
        | nil => simp [tail, opensNext] at opens
        | cons space others => exact ⟨space, others, rfl⟩
      have next : text[i + 1]? = some space := by simpa using congrArg List.head? behind
      have pastSpace := byteCount_take_succ next
      rw [pastMark] at pastSpace
      have behindMark := Slice.behindMark.take_end text (i + 1)
      have sentence := Slice.sentence.take_start text (i + 2)
      have remainder := Slice.remainder.take_end text (openingAfter text i)
      rw [pastMark, behind] at behindMark
      rw [pastSpace] at sentence
      simp only [Except.mapError, bind, Except.bind, if_true, behindMark, List.head?_cons,
        Option.elim_some, sentence, Nat.add_sub_cancel, remainder, atChar, List.take_zero,
        byteCount_nil, pure, Except.pure]

/-- What a turn from the character at position `k` on can come to, and where. -/
inductive TurnFrom (text : List Char) (k : Nat) : Except Slice Turn → Prop
  | tail (missing : nextCandidate? text k = none) : TurnFrom text k (.ok (.tail text))
  | fault {i : Nat} {mark : Char} {fault : SplitFault} (found : nextCandidate? text k = some i)
    (here : text[i]? = some mark) (ends : endsWith mark (text.take i).reverse = .error fault) :
    TurnFrom text k (.error .word)
  | refused {i : Nat} {mark : Char} (found : nextCandidate? text k = some i)
    (here : text[i]? = some mark) (ends : endsWith mark (text.take i).reverse = .ok false) :
    TurnFrom text k (.ok (.refused (atChar text (i + 1))))
  | sentence {i : Nat} {mark : Char} (found : nextCandidate? text k = some i)
    (here : text[i]? = some mark) (ends : endsWith mark (text.take i).reverse = .ok true) :
    TurnFrom text k
      (.ok (.sentence (text.take (i + 2)) (atChar (text.drop (openingAfter text i)) 0)))

theorem turnFrom (inside : k ≤ text.length) : TurnFrom text k (atChar text k).turn := by
  cases found : nextCandidate? text k with
  | none =>
    rw [turn_of_none inside found]
    exact .tail found
  | some i =>
    have before := (nextCandidate?_bounds found).2
    have here := List.getElem?_eq_getElem before
    rw [turn_of_some inside found here]
    cases ends : endsWith text[i] (text.take i).reverse with
    | error fault => exact .fault found here ends
    | ok answer =>
      cases answer with
      | false => exact .refused found here ends
      | true => exact .sentence found here ends

/-! ### Walks -/

/-- A walk that can go on nowhere comes to one place only. -/
theorem Leads.unique {cursor last other : Cursor} {sentences others : List (List Char)}
    (leads : Leads cursor sentences last) (atEnd : last.IsAtEnd)
    (leadsOther : Leads cursor others other) (otherAtEnd : other.IsAtEnd) :
    others = sentences ∧ other = last := by
  induction leads generalizing others with
  | here cursor =>
    cases leadsOther with
    | here => exact ⟨rfl, rfl⟩
    | refused turn later => exact absurd turn (atEnd _).1
    | sentence turn later => exact absurd turn ((atEnd _).2 _)
  | refused turn later inductionHypothesis =>
    cases leadsOther with
    | here => exact absurd turn (otherAtEnd _).1
    | refused turnOther laterOther =>
      obtain rfl := Turn.refused.inj (Except.ok.inj (turn.symm.trans turnOther))
      exact inductionHypothesis atEnd laterOther
    | sentence turnOther laterOther => exact nomatch turn.symm.trans turnOther
  | sentence turn later inductionHypothesis =>
    cases leadsOther with
    | here => exact absurd turn ((otherAtEnd _).2 _)
    | refused turnOther laterOther => exact nomatch turn.symm.trans turnOther
    | sentence turnOther laterOther =>
      obtain ⟨rfl, rfl⟩ := Turn.sentence.inj (Except.ok.inj (turn.symm.trans turnOther))
      obtain ⟨rfl, same⟩ := inductionHypothesis atEnd laterOther
      exact ⟨rfl, same⟩

/-- A walk finds the sentences that a search finds, and breaks off where the search does. -/
theorem leads_of_search {text : List Char} {k : Nat} (inside : k ≤ text.length) :
    match search text k with
    | .ok sentences => ∃ passed last tail, Leads (atChar text k) passed last ∧
        last.turn = .ok (.tail tail) ∧ sentences = passed ++ [tail]
    | .error _ => ∃ passed last, Leads (atChar text k) passed last ∧ last.turn = .error .word := by
  fun_induction search text k with
  | case1 text k missing =>
    exact ⟨[], _, text, .here _, turn_of_none inside missing, rfl⟩
  | case2 text k i found before fault ends =>
    have turn := turn_of_some inside found (List.getElem?_eq_getElem before)
    rw [ends] at turn
    exact ⟨[], _, .here _, turn⟩
  | case3 text k i found before ends inductionHypothesis =>
    have turn := turn_of_some inside found (List.getElem?_eq_getElem before)
    rw [ends] at turn
    have later := inductionHypothesis before
    split at later
    next sentences searched =>
      obtain ⟨passed, last, tail, leads, atTail, rfl⟩ := later
      exact ⟨passed, last, tail, .refused turn leads, atTail, rfl⟩
    next fault searched =>
      obtain ⟨passed, last, leads, atFault⟩ := later
      exact ⟨passed, last, .refused turn leads, atFault⟩
  | case4 text k i found before ends inductionHypothesis =>
    have turn := turn_of_some inside found (List.getElem?_eq_getElem before)
    rw [ends] at turn
    have later := inductionHypothesis (Nat.zero_le _)
    cases searched : search (text.drop (openingAfter text i)) 0 with
    | ok sentences =>
      rw [searched] at later
      obtain ⟨passed, last, tail, leads, atTail, rfl⟩ := later
      exact ⟨_ :: passed, last, tail, .sentence turn leads, atTail, rfl⟩
    | error fault =>
      rw [searched] at later
      obtain ⟨passed, last, leads, atFault⟩ := later
      exact ⟨_ :: passed, last, .sentence turn leads, atFault⟩

end Cursor

/-! ### Whole texts -/

open Cursor

/-- There is a walk through every text. It has the sentences of the text, or breaks off at the word
before a full stop if the text cannot be split. -/
theorem exists_walk (text : List Char) :
    match all text with
    | .ok sentences => Walk text sentences none
    | .error _ => ∃ passed, Walk text passed (some .word) := by
  have walk := leads_of_search (Nat.zero_le text.length)
  rw [all_eq_search]
  cases searched : search text 0 with
  | ok sentences =>
    rw [searched] at walk
    obtain ⟨passed, last, tail, leads, turn, rfl⟩ := walk
    exact .ends leads turn
  | error fault =>
    rw [searched] at walk
    obtain ⟨passed, last, leads, turn⟩ := walk
    exact ⟨passed, .breaksOff leads turn⟩

theorem isAtEnd_of_tail {cursor : Cursor} {tail : List Char}
    (turn : cursor.turn = .ok (.tail tail)) : cursor.IsAtEnd := by
  intro next
  rw [turn]
  exact ⟨fun same => (nomatch same), fun _ same => (nomatch same)⟩

theorem isAtEnd_of_error {cursor : Cursor} {slice : Slice} (turn : cursor.turn = .error slice) :
    cursor.IsAtEnd := by
  intro next
  rw [turn]
  exact ⟨fun same => (nomatch same), fun _ same => (nomatch same)⟩

/-- There is only one walk through a text. -/
theorem Walk.unique {text : List Char} {sentences others : List (List Char)}
    {fault? other? : Option Slice} (walk : Walk text sentences fault?)
    (other : Walk text others other?) : others = sentences ∧ other? = fault? := by
  cases walk with
  | ends leads turn =>
    cases other with
    | ends leadsOther turnOther =>
      obtain ⟨rfl, rfl⟩ :=
        leads.unique (isAtEnd_of_tail turn) leadsOther (isAtEnd_of_tail turnOther)
      obtain rfl := Turn.tail.inj (Except.ok.inj (turn.symm.trans turnOther))
      exact ⟨rfl, rfl⟩
    | breaksOff leadsOther turnOther =>
      obtain ⟨rfl, rfl⟩ :=
        leads.unique (isAtEnd_of_tail turn) leadsOther (isAtEnd_of_error turnOther)
      exact nomatch turn.symm.trans turnOther
  | breaksOff leads turn =>
    cases other with
    | ends leadsOther turnOther =>
      obtain ⟨rfl, rfl⟩ :=
        leads.unique (isAtEnd_of_error turn) leadsOther (isAtEnd_of_tail turnOther)
      exact nomatch turn.symm.trans turnOther
    | breaksOff leadsOther turnOther =>
      obtain ⟨rfl, rfl⟩ :=
        leads.unique (isAtEnd_of_error turn) leadsOther (isAtEnd_of_error turnOther)
      obtain rfl := Except.error.inj (turn.symm.trans turnOther)
      exact ⟨rfl, rfl⟩

end Codebook.Sentences
