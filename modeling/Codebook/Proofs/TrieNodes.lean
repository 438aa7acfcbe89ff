/-
This file carries what is known of the paths of a trie over to its nodes. In a trie that was built
by insertions a path leads to every node (`Trie.Reached.insertAll`), so whatever a node holds, and
whatever step leaves it, was brought there by an inserted phrase
(`Trie.exists_mem_of_mem_payloads`, `Trie.exists_mem_of_child?`).
-/

import Codebook.Proofs.TrieStorage

namespace Codebook.Trie

variable {Payload : Type}

/-! ### The number of phrases -/

@[simp] theorem size_grow (trie : Trie Payload) (node : Nat) (step : Step) :
    (trie.grow node step).1.size = trie.size := by
  unfold grow
  split <;> rfl

@[simp] theorem size_growPath (trie : Trie Payload) (node : Nat) (path : Path) :
    (trie.growPath node path).1.size = trie.size := by
  induction path generalizing trie node with
  | nil => rfl
  | cons step rest inductionHypothesis => rw [growPath_cons, inductionHypothesis, size_grow]

@[simp] theorem size_insert (trie : Trie Payload) (path : Path) (payload : Payload) :
    (trie.insert path payload).size = trie.size + 1 := by
  simp [insert, insertAt]

/-! ### Paths to nodes -/

/-- Whether some path leads to every node. -/
def Reached (trie : Trie Payload) : Prop :=
  ∀ node < trie.nodeCount, ∃ path, trie.walk path = some node

theorem reached_empty : (empty : Trie Payload).Reached := by
  intro node present
  obtain rfl : node = 0 := Nat.lt_one_iff.mp present
  exact ⟨[], walk_nil _⟩

/-- Growing adds one node at most, and leads there. -/
theorem Reached.grow {trie : Trie Payload} (reached : trie.Reached) (shape : trie.WellFormed)
    {path : Path} {node : Nat} (leads : trie.walk path = some node) (step : Step) :
    (trie.grow node step).1.Reached := by
  cases found : trie.child? node step with
  | some next => rwa [grow_of_child found]
  | none =>
    intro other present
    have count : (trie.grow node step).1.nodeCount = trie.nodeCount + 1 := by
      simp [grow_of_missing found, nodeCount]
    have named : (trie.grow node step).2 = trie.nodeCount := by rw [grow_of_missing found]
    rw [count, Nat.lt_succ_iff_lt_or_eq] at present
    rcases present with old | rfl
    · obtain ⟨otherPath, otherLeads⟩ := reached other old
      refine ⟨otherPath, ?_⟩
      -- the path to the new node led nowhere before
      have different : otherPath ≠ path ++ [step] := by
        rintro rfl
        rw [walk_append_step, leads, Option.bind_some, found] at otherLeads
        cases otherLeads
      rw [shape.walk_grow leads, if_neg different, otherLeads]
    · exact ⟨path ++ [step], by rw [shape.walk_grow leads, if_pos rfl, named]⟩

theorem Reached.growPath {trie : Trie Payload} (reached : trie.Reached) (shape : trie.WellFormed)
    {front : Path} {node : Nat} (leads : trie.walk front = some node) (path : Path) :
    (trie.growPath node path).1.Reached := by
  induction path generalizing trie front node with
  | nil => exact reached
  | cons step rest inductionHypothesis =>
    have grownLeads : (trie.grow node step).1.walk (front ++ [step]) =
        some (trie.grow node step).2 := by
      rw [shape.walk_grow leads, if_pos rfl]
    exact inductionHypothesis (reached.grow shape leads step)
      (shape.grow (shape.walk_lt leads) step).1 grownLeads

theorem Reached.insert {trie : Trie Payload} (reached : trie.Reached) (shape : trie.WellFormed)
    (path : Path) (payload : Payload) : (trie.insert path payload).Reached := by
  intro node present
  rw [nodeCount_insert] at present
  obtain ⟨nodePath, leads⟩ :=
    reached.growPath shape trie.walk_nil (path ++ [.boundary]) node present
  exact ⟨nodePath, by rw [walk_congr (trie.child?_insert path payload), leads]⟩

theorem Reached.insertAll {trie : Trie Payload} (reached : trie.Reached) (shape : trie.WellFormed)
    (phrases : List (Path × Payload)) : (trie.insertAll phrases).Reached := by
  induction phrases generalizing trie with
  | nil => exact reached
  | cons phrase phrases inductionHypothesis =>
    exact inductionHypothesis (reached.insert shape phrase.1 phrase.2)
      (shape.insert phrase.1 phrase.2)

/-! ### What nodes hold -/

/-- What a path finds is held by the node behind the boundary at its end. -/
theorem mem_find_iff {trie : Trie Payload} {path : Path} {payload : Payload} :
    payload ∈ trie.find path ↔
      ∃ node, trie.walk (path ++ [.boundary]) = some node ∧ payload ∈ trie.payloads node := by
  rw [find_eq_stored?, stored?]
  cases trie.walk (path ++ [.boundary]) <;> simp

variable {phrases : List (Path × Payload)} {node : Nat}

/-- Some path leads to a node with children. -/
theorem exists_walk_of_child? {step : Step} {next : Nat}
    (isChild : ((empty : Trie Payload).insertAll phrases).child? node step = some next) :
    ∃ path, ((empty : Trie Payload).insertAll phrases).walk path = some node := by
  refine reached_empty.insertAll wellFormed_empty phrases node ?_
  by_contra absent
  rw [child?_eq_none_of_le (Nat.le_of_not_lt absent)] at isChild
  cases isChild

/-- A step leads from one node to another only if it occurs in an inserted phrase. -/
theorem exists_mem_of_child? {step : Step} {next : Nat}
    (isChild : ((empty : Trie Payload).insertAll phrases).child? node step = some next) :
    ∃ phrase ∈ phrases, step ∈ phrase.1 ++ [.boundary] := by
  obtain ⟨path, leads⟩ := exists_walk_of_child? isChild
  have further : (((empty : Trie Payload).insertAll phrases).walk (path ++ [step])).isSome := by
    rw [walk_append_step_eq_some.mpr ⟨node, leads, isChild⟩, Option.isSome_some]
  rcases (walk_insertAll_isSome phrases _).mp further with noPath | ⟨phrase, inserted, isPrefix⟩
  · simp at noPath
  · exact ⟨phrase, inserted, isPrefix.subset (by simp)⟩

/-- Every step of an inserted phrase leads from one node to another. -/
theorem exists_child?_of_mem {phrase : Path × Payload} (inserted : phrase ∈ phrases) {step : Step}
    (onPath : step ∈ phrase.1 ++ [.boundary]) :
    ∃ node next, ((empty : Trie Payload).insertAll phrases).child? node step = some next := by
  obtain ⟨front, back, shape⟩ := List.append_of_mem onPath
  have further : (((empty : Trie Payload).insertAll phrases).walk (front ++ [step])).isSome := by
    refine (walk_insertAll_isSome phrases _).mpr (.inr ⟨phrase, inserted, ?_⟩)
    exact ⟨back, by rw [shape, List.append_assoc, List.singleton_append]⟩
  obtain ⟨next, leads⟩ := Option.isSome_iff_exists.mp further
  obtain ⟨node, -, isChild⟩ := walk_append_step_eq_some.mp leads
  exact ⟨node, next, isChild⟩

/-- A step of a kind leads between nodes exactly if an inserted phrase has such a step. -/
theorem exists_child?_with_iff {P : Step → Prop} :
    (∃ node step next,
      ((empty : Trie Payload).insertAll phrases).child? node step = some next ∧ P step) ↔
      ∃ phrase ∈ phrases, ∃ step ∈ phrase.1 ++ [.boundary], P step := by
  constructor
  · rintro ⟨node, step, next, isChild, holds⟩
    obtain ⟨phrase, inserted, onPath⟩ := exists_mem_of_child? isChild
    exact ⟨phrase, inserted, step, onPath, holds⟩
  · rintro ⟨phrase, inserted, step, onPath, holds⟩
    obtain ⟨node, next, isChild⟩ := exists_child?_of_mem inserted onPath
    exact ⟨node, step, next, isChild, holds⟩

/-- Before the first insertion nothing is stored anywhere. -/
theorem getD_stored?_empty (path : Path) : ((empty : Trie Payload).stored? path).getD [] = [] := by
  cases path with
  | nil => rfl
  | cons step rest => simp [stored?, walk, walkFrom, child?_empty]

/-- A node holds a payload only if an inserted phrase leads there and brought it. -/
theorem exists_mem_of_mem_payloads {payload : Payload}
    (held : payload ∈ ((empty : Trie Payload).insertAll phrases).payloads node) :
    ∃ path, (path, payload) ∈ phrases ∧
      ((empty : Trie Payload).insertAll phrases).walk (path ++ [.boundary]) = some node := by
  have present : node < ((empty : Trie Payload).insertAll phrases).nodeCount := by
    by_contra absent
    rw [payloads_eq_nil_of_le (Nat.le_of_not_lt absent)] at held
    cases held
  obtain ⟨whole, leads⟩ := reached_empty.insertAll wellFormed_empty phrases node present
  have stored := wellFormed_empty.getD_stored?_insertAll phrases whole
  rw [stored?, leads, Option.map_some, Option.getD_some] at stored
  rw [getD_stored?_empty, List.nil_append] at stored
  obtain ⟨⟨path, _⟩, member, rfl⟩ := List.mem_map.mp (stored ▸ held)
  obtain ⟨inserted, same⟩ := List.mem_filter.mp member
  obtain rfl : path ++ [.boundary] = whole := by simpa using same
  exact ⟨path, inserted, leads⟩

end Codebook.Trie
