/-
This file says what looking up a phrase of running text finds. A trie may hold several paths with
the same words, which differ in how the words are linked, and the look-up tries the links in turn.
Main statement: it finds what is stored for the path whose links come first in lexicographic order,
adjacent words before words after a gap, and it finds nothing only if no path with these words is
stored (`Trie.findWords_eq_least`).
-/

import Codebook.Proofs.TrieStorage

namespace Codebook

/-! ### The order of links -/

/-- Adjacent words come before words after a gap. -/
def Link.Before (left right : Link) : Prop :=
  left = adjacent ∧ right = gap

/-- Whether one row of links comes before another in lexicographic order, or is the same. -/
def Link.NoLater (left right : List Link) : Prop :=
  left = right ∨ List.Lex Before left right

theorem Link.NoLater.cons {link : Link} {left right : List Link} (noLater : NoLater left right) :
    NoLater (link :: left) (link :: right) := by
  rcases noLater with rfl | before
  · exact .inl rfl
  · exact .inr (.cons before)

theorem Link.noLater_adjacent_gap (left right : List Link) :
    NoLater (adjacent :: left) (gap :: right) :=
  .inr (.rel ⟨rfl, rfl⟩)

/-! ### The first hit of a search -/

/-- Whether `result` is the first hit among the rows of `count` links: the hit of a row that comes
no later than any other row with a hit, or nothing if no row has one. -/
def IsFirstHit {Hit : Type} (hits : List Link → List Hit) (count : Nat) (result : List Hit) :
    Prop :=
  (result = [] ∧ ∀ links : List Link, links.length = count → hits links = []) ∨
    ∃ links : List Link, links.length = count ∧ hits links = result ∧ result ≠ [] ∧
      ∀ other : List Link, other.length = count → hits other ≠ [] → Link.NoLater links other

namespace IsFirstHit

variable {Hit : Type} {hits : List Link → List Hit} {count : Nat}

theorem nothing : IsFirstHit (fun _ => ([] : List Hit)) count [] :=
  .inl ⟨rfl, fun _ _ => rfl⟩

/-- Without links there is one row only. -/
theorem zero : IsFirstHit hits 0 (hits []) := by
  by_cases miss : hits [] = []
  · refine .inl ⟨miss, fun links none => ?_⟩
    rw [List.length_eq_zero_iff.mp none, miss]
  · refine .inr ⟨[], rfl, rfl, miss, fun other none _ => ?_⟩
    rw [List.length_eq_zero_iff.mp none]
    exact .inl rfl

/-- The rows that start with an adjacent word are searched first, and the others only if there is no
hit among these. -/
theorem succ {close far : List Hit}
    (closeFirst : IsFirstHit (fun links => hits (.adjacent :: links)) count close)
    (farFirst : IsFirstHit (fun links => hits (.gap :: links)) count far) :
    IsFirstHit hits (count + 1) (if close.isEmpty then far else close) := by
  rcases closeFirst with ⟨rfl, closeMisses⟩ | ⟨links, length, hit, nonempty, least⟩
  · rw [List.isEmpty_nil, if_pos rfl]
    rcases farFirst with ⟨rfl, farMisses⟩ | ⟨links, length, hit, nonempty, least⟩
    · refine .inl ⟨rfl, fun links length => ?_⟩
      rcases links with _ | ⟨_ | _, rest⟩
      · cases length
      · exact closeMisses rest (Nat.succ.inj length)
      · exact farMisses rest (Nat.succ.inj length)
    · refine .inr ⟨.gap :: links, congrArg Nat.succ length, hit, nonempty, ?_⟩
      intro other otherLength otherHit
      rcases other with _ | ⟨_ | _, rest⟩
      · cases otherLength
      · exact absurd (closeMisses rest (Nat.succ.inj otherLength)) otherHit
      · exact (least rest (Nat.succ.inj otherLength) otherHit).cons
  · have notEmpty : close.isEmpty = false := by simpa using nonempty
    rw [notEmpty, if_neg Bool.false_ne_true]
    refine .inr ⟨.adjacent :: links, congrArg Nat.succ length, hit, nonempty, ?_⟩
    intro other otherLength otherHit
    rcases other with _ | ⟨_ | _, rest⟩
    · cases otherLength
    · exact (least rest (Nat.succ.inj otherLength) otherHit).cons
    · exact Link.noLater_adjacent_gap links rest

end IsFirstHit

namespace Trie

variable {Payload : Type}

/-! ### The search in a trie -/

/-- The path that spells the words with the given links before them. -/
def spelled (words : List String) (links : List Link) : Path :=
  List.zipWith (fun word link => .word (Text.upper word) link) words links

/-- What is stored for the path from `node`. -/
def findFrom (trie : Trie Payload) (node : Nat) (path : Path) : List Payload :=
  ((trie.walkFrom node path).map trie.terminal).getD []

theorem findFrom_cons (trie : Trie Payload) (node : Nat) (step : Step) (path : Path) :
    trie.findFrom node (step :: path) =
      ((trie.child? node step).map fun next => trie.findFrom next path).getD [] := by
  rw [findFrom, walkFrom]
  cases trie.child? node step <;> rfl

/-- The search tries the links before the words one after the other, and goes back where it finds
nothing. -/
theorem isFirstHit_findWordsFrom (trie : Trie Payload) (words : List String) (node : Nat) :
    IsFirstHit (fun links => trie.findFrom node (spelled words links)) words.length
      (trie.findWordsFrom node words) := by
  induction words generalizing node with
  | nil => exact .zero
  | cons word rest inductionHypothesis =>
    have along (link : Link) :
        IsFirstHit (fun links => trie.findFrom node (spelled (word :: rest) (link :: links)))
          rest.length
          (((trie.child? node (.word (Text.upper word) link)).map fun next =>
            trie.findWordsFrom next rest).getD []) := by
      simp only [spelled, List.zipWith_cons_cons, findFrom_cons]
      cases trie.child? node (.word (Text.upper word) link) with
      | none => exact .nothing
      | some next => exact inductionHypothesis next
    exact (along .adjacent).succ (along .gap)

/-! ### What is found in what was inserted -/

/-- What a look-up finds was inserted for a path with these words. -/
theorem exists_mem_of_mem_findWords {phrases : List (Path × Payload)} {words : List String}
    {payload : Payload}
    (found : payload ∈ ((empty : Trie Payload).insertAll phrases).findWords words) :
    ∃ links : List Link,
      links.length = words.length ∧ (spelled words links, payload) ∈ phrases := by
  rcases isFirstHit_findWordsFrom ((empty : Trie Payload).insertAll phrases) words 0 with
    ⟨nothing, -⟩ | ⟨links, length, hit, -⟩
  · rw [findWords, nothing] at found
    cases found
  · rw [findWords, ← hit] at found
    exact ⟨links, length, mem_find_insertAll.mp found⟩

/-- Words are found if a path with them was inserted. -/
theorem findWords_ne_nil {phrases : List (Path × Payload)} {words : List String}
    {links : List Link} {payload : Payload} (length : links.length = words.length)
    (inserted : (spelled words links, payload) ∈ phrases) :
    ((empty : Trie Payload).insertAll phrases).findWords words ≠ [] := by
  rcases isFirstHit_findWordsFrom ((empty : Trie Payload).insertAll phrases) words 0 with
    ⟨-, misses⟩ | ⟨_, -, hit, nonempty, -⟩
  · have nothing : ((empty : Trie Payload).insertAll phrases).find (spelled words links) = [] :=
      misses links length
    exact absurd (mem_find_insertAll.mpr inserted) (nothing ▸ List.not_mem_nil)
  · exact nonempty

/-- Whether a path with the words was inserted, and with these links. -/
def IsInserted (phrases : List (Path × Payload)) (words : List String) (links : List Link) : Prop :=
  links.length = words.length ∧ spelled words links ∈ phrases.map (·.1)

/-- Looking up words finds nothing exactly if no path with these words was inserted. Otherwise it
finds the payloads, in the order of the insertions, of the one such path whose links come first. -/
theorem findWords_eq_least (phrases : List (Path × Payload)) (words : List String) :
    (((empty : Trie Payload).insertAll phrases).findWords words = [] ↔
        ∀ links, ¬ IsInserted phrases words links) ∧
      ((∀ links, ¬ IsInserted phrases words links) ∨
        ∃ links, IsInserted phrases words links ∧
          (∀ other, IsInserted phrases words other → Link.NoLater links other) ∧
          ((empty : Trie Payload).insertAll phrases).findWords words =
            (phrases.filter fun phrase => phrase.1 = spelled words links).map (·.2)) := by
  have stored (links : List Link) :
      ((empty : Trie Payload).insertAll phrases).findFrom 0 (spelled words links) =
        (phrases.filter fun phrase => phrase.1 = spelled words links).map (·.2) :=
    find_insertAll phrases (spelled words links)
  have hit (links : List Link) :
      ((empty : Trie Payload).insertAll phrases).findFrom 0 (spelled words links) ≠ [] ↔
        spelled words links ∈ phrases.map (·.1) := by
    rw [stored]
    simp
  rcases isFirstHit_findWordsFrom ((empty : Trie Payload).insertAll phrases) words 0 with
    ⟨nothing, misses⟩ | ⟨links, length, found, nonempty, least⟩
  · have notInserted : ∀ links, ¬ IsInserted phrases words links := by
      rintro links ⟨length, inserted⟩
      exact (hit links).mpr inserted (misses links length)
    exact ⟨iff_of_true nothing notInserted, .inl notInserted⟩
  · have inserted : IsInserted phrases words links :=
      ⟨length, (hit links).mp fun miss => nonempty (found.symm.trans miss)⟩
    refine ⟨iff_of_false nonempty fun none => none links inserted, .inr ⟨links, inserted, ?_, ?_⟩⟩
    · rintro other ⟨otherLength, otherInserted⟩
      exact least other otherLength ((hit other).mpr otherInserted)
    · exact found.symm.trans (stored links)

/-- The adjacent `B` leads on to no `D`, so the search goes back to `A`. -/
example :
    ((empty : Trie Nat).insertAll
      [([.root "A", .word "B" .adjacent, .word "C" .adjacent], 1),
        ([.root "A", .word "B" .gap, .word "D" .gap], 2)]).findWords ["a", "b", "d"] = [2] := by
  decide +kernel

end Trie

end Codebook
