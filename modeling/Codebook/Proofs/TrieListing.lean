/-
This file says in which order a trie lists its phrases. Listing goes from node to node, the payloads
of a node first and then its children in the order of the steps to them, and this is the order of
the whole paths, the boundary at their ends included. So the listing of a trie that was built by
insertions is what was inserted, sorted by path, with the payloads of one path in the order in which
they were inserted (`Trie.listing_eq_sorted`). Two facts settle it: what is listed for one path is
what the path finds (`Trie.WellFormed.filter_phrasesBelow`), and the paths ascend
(`Trie.WellFormed.pairwise_phrasesBelow`).
-/

import Codebook.Proofs.TrieArena
import Mathlib.Data.List.Nodup

namespace Codebook

open Std

/-! ### Sorted lists of phrases -/

section Sorted

variable {Payload : Type}

/-- Whether a phrase is listed before another one or may be: its whole path is not greater. Paths are
compared step by step, and a path comes before those that it begins. -/
def precedes (left right : Path × Payload) : Bool :=
  (compare (left.1 ++ [.boundary]) (right.1 ++ [.boundary])).isLE

theorem precedes_trans (first second third : Path × Payload) (before : precedes first second = true)
    (after : precedes second third = true) : precedes first third = true :=
  TransCmp.isLE_trans before after

theorem precedes_total (left right : Path × Payload) :
    (precedes left right || precedes right left) = true := by
  have turned : compare (right.1 ++ [Step.boundary]) (left.1 ++ [.boundary]) =
      (compare (left.1 ++ [Step.boundary]) (right.1 ++ [.boundary])).swap :=
    OrientedCmp.eq_swap
  rw [precedes, precedes, turned]
  cases compare (left.1 ++ [Step.boundary]) (right.1 ++ [.boundary]) <;> rfl

theorem precedes_of_path_eq {left right : Path × Payload} (same : left.1 = right.1) :
    precedes left right = true := by
  rw [precedes, same]
  exact ReflCmp.isLE_rfl

/-- Only phrases with the same path may stand in either order. -/
theorem path_eq_of_precedes {left right : Path × Payload} (before : precedes left right = true)
    (after : precedes right left = true) : left.1 = right.1 := by
  have same := LawfulEqCmp.eq_of_compare (OrientedCmp.isLE_antisymm before after)
  exact List.append_cancel_right same

/-- A sorted list is known from what it holds for each path. -/
theorem eq_of_sorted_of_filter {left right : List (Path × Payload)}
    (leftSorted : left.Pairwise fun first second => precedes first second = true)
    (rightSorted : right.Pairwise fun first second => precedes first second = true)
    (same : ∀ path, left.filter (·.1 = path) = right.filter (·.1 = path)) : left = right := by
  induction left generalizing right with
  | nil =>
    cases right with
    | nil => rfl
    | cons phrase rest => simpa using same phrase.1
  | cons phrase rest inductionHypothesis =>
    cases right with
    | nil => simpa using same phrase.1
    | cons other others =>
      obtain ⟨phraseFirst, restSorted⟩ := List.pairwise_cons.mp leftSorted
      obtain ⟨otherFirst, othersSorted⟩ := List.pairwise_cons.mp rightSorted
      have otherHeld : other ∈ (phrase :: rest).filter (·.1 = other.1) := by
        rw [same]
        simp
      have phraseHeld : phrase ∈ (other :: others).filter (·.1 = phrase.1) := by
        rw [← same]
        simp
      have before : precedes phrase other = true := by
        rcases List.mem_cons.mp (List.mem_of_mem_filter otherHeld) with rfl | later
        · exact precedes_of_path_eq rfl
        · exact phraseFirst other later
      have after : precedes other phrase = true := by
        rcases List.mem_cons.mp (List.mem_of_mem_filter phraseHeld) with rfl | later
        · exact precedes_of_path_eq rfl
        · exact otherFirst phrase later
      have samePath := path_eq_of_precedes before after
      obtain ⟨rfl, -⟩ : phrase = other ∧ _ := by
        simpa [samePath] using same phrase.1
      rw [inductionHypothesis restSorted othersSorted fun path => ?_]
      have whole := same path
      simp only [List.filter_cons] at whole
      split at whole
      · exact (List.cons.inj whole).2
      · exact whole

theorem pairwise_mergeSort_precedes (phrases : List (Path × Payload)) :
    (phrases.mergeSort precedes).Pairwise fun first second => precedes first second = true :=
  List.pairwise_mergeSort precedes_trans precedes_total phrases

/-- Sorting keeps the order of the phrases with one path. -/
theorem filter_mergeSort_precedes (phrases : List (Path × Payload)) (path : Path) :
    (phrases.mergeSort precedes).filter (·.1 = path) = phrases.filter (·.1 = path) := by
  have alike : (phrases.filter (·.1 = path)).Pairwise fun first second =>
      precedes first second = true := by
    refine List.pairwise_of_forall_mem_list fun first isFirst second isSecond => ?_
    have firstPath := (List.mem_filter.mp isFirst).2
    have secondPath := (List.mem_filter.mp isSecond).2
    exact precedes_of_path_eq ((of_decide_eq_true firstPath).trans
      (of_decide_eq_true secondPath).symm)
  have kept := (List.sublist_mergeSort precedes_trans precedes_total alike
    List.filter_sublist).filter (·.1 = path)
  simp only [List.filter_filter, Bool.and_self] at kept
  exact (kept.eq_of_length ((List.mergeSort_perm phrases precedes).filter _).length_eq.symm).symm

/-- Phrases with different paths have one sorted order, however they are given. -/
theorem mergeSort_precedes_of_perm {phrases others : List (Path × Payload)}
    (rearranged : others.Perm phrases) (distinct : (phrases.map (·.1)).Nodup) :
    others.mergeSort precedes = phrases.mergeSort precedes := by
  have sorted := List.mergeSort_perm phrases precedes
  have othersSorted := List.mergeSort_perm others precedes
  refine List.Perm.eq_of_pairwise (fun first second isFirst isSecond before after => ?_)
    (pairwise_mergeSort_precedes others) (pairwise_mergeSort_precedes phrases)
    ((othersSorted.trans rearranged).trans sorted.symm)
  exact List.inj_on_of_nodup_map distinct (rearranged.subset (othersSorted.subset isFirst))
    (sorted.subset isSecond) (path_eq_of_precedes before after)

end Sorted

/-! ### The order of paths -/

/-- Paths with a common beginning compare as what comes behind it. -/
theorem Path.compare_append (front left right : Path) :
    compare (front ++ left) (front ++ right) = compare left right := by
  induction front with
  | nil => rfl
  | cons step rest inductionHypothesis =>
    have same : compare step step = .eq := ReflCmp.compare_self
    rw [List.cons_append, List.cons_append, List.compare_cons_cons, same, inductionHypothesis]
    rfl

/-- A path comes before those that it begins. -/
theorem Path.isLE_of_prefix {front path : Path} (isPrefix : front <+: path) :
    (compare front path).isLE = true := by
  obtain ⟨rest, rfl⟩ := isPrefix
  have common := compare_append front [] rest
  rw [List.append_nil] at common
  rw [common]
  cases rest <;> rfl

/-- The first steps that differ decide. -/
theorem Path.compare_of_lt {front left right : Path} {leftStep rightStep : Step}
    (less : compare leftStep rightStep = .lt) (leftPrefix : front ++ [leftStep] <+: left)
    (rightPrefix : front ++ [rightStep] <+: right) : compare left right = .lt := by
  obtain ⟨leftRest, rfl⟩ := leftPrefix
  obtain ⟨rightRest, rfl⟩ := rightPrefix
  rw [List.append_assoc, List.append_assoc, compare_append, List.singleton_append,
    List.singleton_append, List.compare_cons_cons, less]
  rfl

/-! ### Children along one step -/

/-- The entries of a map hold one value for a key at most. -/
theorem SortedMap.flatMap_entries {Key Value Result : Type} [Ord Key] [TransOrd Key]
    [LawfulEqOrd Key] [DecidableEq Key] (map : SortedMap Key Value) (key : Key)
    (results : Value → List Result) :
    (map.entries.flatMap fun entry => if entry.1 = key then results entry.2 else []) =
      ((map.get? key).map results).getD [] := by
  have others {entries : List (Key × Value)} (absent : ∀ entry ∈ entries, entry.1 ≠ key) :
      (entries.flatMap fun entry => if entry.1 = key then results entry.2 else []) = [] :=
    List.flatMap_eq_nil_iff.mpr fun entry member => if_neg (absent entry member)
  cases found : map.get? key with
  | none =>
    refine others fun entry member same => ?_
    rw [← same, mem_entries_iff.mp member] at found
    cases found
  | some value =>
    obtain ⟨front, back, shape⟩ := List.append_of_mem (mem_entries_iff.mpr found)
    have ascending := map.ascending
    rw [shape] at ascending ⊢
    obtain ⟨-, fromHere, before⟩ := List.pairwise_append.mp ascending
    obtain ⟨after, -⟩ := List.pairwise_cons.mp fromHere
    have apart {first second : Key} (less : compare first second = .lt) : first ≠ second := by
      rintro rfl
      simp [ReflCmp.compare_self] at less
    rw [List.flatMap_append, List.flatMap_cons, if_pos rfl,
      others fun entry member => apart (before entry member _ List.mem_cons_self),
      others fun entry member => (apart (after entry member)).symm]
    simp

namespace Trie

variable {Payload : Type}

theorem flatMap_children {Result : Type} (trie : Trie Payload) (node : Nat) (step : Step)
    (results : Nat → List Result) :
    ((trie.children node).flatMap fun edge => if edge.1 = step then results edge.2 else []) =
      ((trie.child? node step).map results).getD [] := by
  unfold children child?
  cases trie.nodes[node]? with
  | none => rfl
  | some found => exact found.children.flatMap_entries step results

/-! ### What is listed below a node -/

section Below

variable {trie : Trie Payload} {node : Nat} {front path : Path}

/-- A path that leads to a payload ends with a boundary. -/
theorem exists_boundary_of_walk (held : trie.BoundaryHeld) (rootBare : trie.payloads 0 = [])
    (leads : trie.walk front = some node) (holds : trie.payloads node ≠ []) :
    front = front.dropLast ++ [.boundary] := by
  rcases List.eq_nil_or_concat front with rfl | ⟨rest, step, rfl⟩
  · obtain rfl := Option.some.inj leads
    exact absurd rootBare holds
  · rw [List.concat_eq_append] at leads ⊢
    obtain ⟨parent, -, isChild⟩ := walk_append_step_eq_some.mp leads
    rw [held parent step node isChild holds, List.dropLast_concat]

/-- What a node itself holds is listed for the path that leads there. -/
theorem filter_payloads (held : trie.BoundaryHeld) (rootBare : trie.payloads 0 = [])
    (leads : trie.walk front = some node) :
    ((trie.payloads node).map (front.dropLast, ·)).filter (·.1 = path) =
      if front = path ++ [.boundary] then (trie.find path).map (path, ·) else [] := by
  split
  next same =>
    subst same
    have found : trie.find path = trie.payloads node := by
      rw [find_eq_stored?, stored?, leads, Option.map_some, Option.getD_some]
    rw [found, List.dropLast_concat, List.filter_eq_self]
    intro phrase member
    obtain ⟨payload, -, rfl⟩ := List.mem_map.mp member
    exact decide_eq_true rfl
  next different =>
    rw [List.filter_eq_nil_iff]
    intro phrase member
    obtain ⟨payload, holds, rfl⟩ := List.mem_map.mp member
    have shape := exists_boundary_of_walk held rootBare leads (List.ne_nil_of_mem holds)
    simp only [decide_eq_true_eq]
    rintro rfl
    exact different shape

/-- What is listed below a node for a path is all that the path finds, if the path leads through the
node, and nothing otherwise. -/
theorem WellFormed.filter_phrasesBelow (shape : trie.WellFormed) (held : trie.BoundaryHeld)
    (rootBare : trie.payloads 0 = []) {levels : Nat} (leads : trie.walk front = some node)
    (enough : trie.nodeCount ≤ levels + node) (path : Path) :
    (trie.phrasesBelow levels node front).filter (·.1 = path) =
      if front <+: path ++ [.boundary] then (trie.find path).map (path, ·) else [] := by
  induction levels generalizing node front with
  | zero =>
    have present := shape.walk_lt leads
    omega
  | succ levels inductionHypothesis =>
    have below : ∀ edge ∈ trie.children node,
        (trie.phrasesBelow levels edge.2 (front ++ [edge.1])).filter (·.1 = path) =
          if front ++ [edge.1] <+: path ++ [.boundary] then (trie.find path).map (path, ·)
          else [] := by
      intro edge isEdge
      have isChild := mem_children.mp isEdge
      have later := (shape.child_later isChild).1
      exact inductionHypothesis (walk_append_step_eq_some.mpr ⟨node, leads, isChild⟩) (by omega)
    rw [phrasesBelow, List.filter_append, filter_payloads held rootBare leads, List.filter_flatMap,
      List.flatMap_congr below]
    by_cases isPrefix : front <+: path ++ [.boundary]
    · obtain ⟨_ | ⟨step, rest⟩, whole⟩ := isPrefix
      · -- the path ends here, so no child is on it
        rw [List.append_nil] at whole
        simp [whole]
      · have notHere : front ≠ path ++ [.boundary] := fun same => by simp [same] at whole
        have onPath (other : Step) :
            front ++ [other] <+: path ++ [.boundary] ↔ other = step := by
          rw [← whole, List.prefix_append_right_inj, List.singleton_prefix_cons_iff]
        simp only [onPath]
        rw [if_neg notHere, List.nil_append, if_pos ⟨step :: rest, whole⟩,
          trie.flatMap_children node step fun _ => (trie.find path).map (path, ·)]
        cases isChild : trie.child? node step with
        | some next => rfl
        | none =>
          have nowhere : trie.walk (path ++ [.boundary]) = none := by
            rw [← whole, walk_append, leads, Option.bind_some, walkFrom, isChild, Option.bind_none]
          simp [find_eq_stored?, stored?, nowhere]
    · have notHere : front ≠ path ++ [.boundary] := fun same => isPrefix (same ▸ List.prefix_refl _)
      have beyond (step : Step) : ¬ front ++ [step] <+: path ++ [.boundary] := fun further =>
        isPrefix ((List.prefix_append front [step]).trans further)
      simp [isPrefix, notHere, beyond]

/-- What is listed below a node has a path that leads through the node. -/
theorem WellFormed.prefix_of_mem_phrasesBelow (shape : trie.WellFormed) (held : trie.BoundaryHeld)
    (rootBare : trie.payloads 0 = []) {levels : Nat} (leads : trie.walk front = some node)
    (enough : trie.nodeCount ≤ levels + node) {phrase : Path × Payload}
    (listed : phrase ∈ trie.phrasesBelow levels node front) :
    front <+: phrase.1 ++ [.boundary] := by
  by_contra notThrough
  have none := shape.filter_phrasesBelow held rootBare leads enough phrase.1
  rw [if_neg notThrough, List.filter_eq_nil_iff] at none
  exact none phrase listed (decide_eq_true rfl)

/-- The paths that are listed below a node ascend. -/
theorem WellFormed.pairwise_phrasesBelow (shape : trie.WellFormed) (held : trie.BoundaryHeld)
    (rootBare : trie.payloads 0 = []) {levels : Nat} (leads : trie.walk front = some node)
    (enough : trie.nodeCount ≤ levels + node) :
    (trie.phrasesBelow levels node front).Pairwise fun first second =>
      precedes first second = true := by
  induction levels generalizing node front with
  | zero => exact List.Pairwise.nil
  | succ levels inductionHypothesis =>
    have leadsOn {edge : Step × Nat} (isEdge : edge ∈ trie.children node) :
        trie.walk (front ++ [edge.1]) = some edge.2 ∧ trie.nodeCount ≤ levels + edge.2 := by
      have isChild := mem_children.mp isEdge
      have later := (shape.child_later isChild).1
      exact ⟨walk_append_step_eq_some.mpr ⟨node, leads, isChild⟩, by omega⟩
    have through {edge : Step × Nat} (isEdge : edge ∈ trie.children node) {phrase : Path × Payload}
        (listed : phrase ∈ trie.phrasesBelow levels edge.2 (front ++ [edge.1])) :
        front ++ [edge.1] <+: phrase.1 ++ [.boundary] :=
      shape.prefix_of_mem_phrasesBelow held rootBare (leadsOn isEdge).1 (leadsOn isEdge).2 listed
    rw [phrasesBelow, List.pairwise_append, List.pairwise_flatMap]
    refine ⟨?own, ⟨?each, ?between⟩, ?below⟩
    case own =>
      rw [List.pairwise_map]
      exact List.pairwise_of_forall fun _ _ => precedes_of_path_eq rfl
    case each =>
      exact fun edge isEdge => inductionHypothesis (leadsOn isEdge).1 (leadsOn isEdge).2
    case between =>
      have ascending : (trie.children node).Pairwise fun left right =>
          compare left.1 right.1 = .lt := by
        unfold children
        cases trie.nodes[node]? with
        | none => exact List.Pairwise.nil
        | some found => exact found.children.ascending
      refine ascending.imp_of_mem fun isLeft isRight less first isFirst second isSecond => ?_
      have apart := Path.compare_of_lt less (through isLeft isFirst) (through isRight isSecond)
      rw [precedes, apart]
      rfl
    case below =>
      intro first isFirst second isSecond
      obtain ⟨payload, holds, rfl⟩ := List.mem_map.mp isFirst
      obtain ⟨edge, isEdge, listed⟩ := List.mem_flatMap.mp isSecond
      have ends := exists_boundary_of_walk held rootBare leads (List.ne_nil_of_mem holds)
      have isPrefix := (List.prefix_append front [edge.1]).trans (through isEdge listed)
      rw [precedes, ← ends]
      exact Path.isLE_of_prefix isPrefix

end Below

/-! ### After any insertions -/

theorem boundaryHeld_insertAll (phrases : List (Path × Payload)) :
    ((empty : Trie Payload).insertAll phrases).BoundaryHeld := by
  intro node step child isChild holds
  obtain ⟨parent, isEdge⟩ := exists_boundary_of_payloads holds
  exact ((wellFormed_empty.insertAll phrases).parent_unique isChild (mem_children.mp isEdge)).2

theorem payloads_root_insertAll (phrases : List (Path × Payload)) :
    ((empty : Trie Payload).insertAll phrases).payloads 0 = [] := by
  by_contra holds
  obtain ⟨parent, isEdge⟩ := exists_boundary_of_payloads holds
  have later := (wellFormed_empty.insertAll phrases).child_later (mem_children.mp isEdge)
  exact Nat.not_lt_zero parent later.1

theorem size_insertAll (trie : Trie Payload) (phrases : List (Path × Payload)) :
    (trie.insertAll phrases).size = trie.size + phrases.length := by
  induction phrases generalizing trie with
  | nil => rfl
  | cons phrase rest inductionHypothesis =>
    rw [insertAll_cons, inductionHypothesis, size_insert, List.length_cons, Nat.add_right_comm,
      Nat.add_assoc]

/-- The listing is what was inserted, sorted by path. -/
theorem phrases_insertAll (phrases : List (Path × Payload)) :
    ((empty : Trie Payload).insertAll phrases).phrases = phrases.mergeSort precedes := by
  have shape : ((empty : Trie Payload).insertAll phrases).WellFormed :=
    wellFormed_empty.insertAll phrases
  have held := boundaryHeld_insertAll phrases
  have rootBare := payloads_root_insertAll phrases
  refine eq_of_sorted_of_filter
    (shape.pairwise_phrasesBelow held rootBare (walk_nil _) (Nat.le_refl _))
    (pairwise_mergeSort_precedes phrases) fun path => ?_
  have listed := shape.filter_phrasesBelow held rootBare (walk_nil _) (Nat.le_refl _) path
  have whole : ((phrases.filter (·.1 = path)).map fun phrase => (path, phrase.2)) =
      phrases.filter (·.1 = path) := by
    refine (List.map_congr_left fun phrase member => ?_).trans (List.map_id _)
    rw [← of_decide_eq_true (List.mem_filter.mp member).2]
    rfl
  rw [if_pos List.nil_prefix, find_insertAll, List.map_map] at listed
  rw [filter_mergeSort_precedes, ← whole]
  exact listed

/-- After any insertions into an empty trie, the listing is the stable sort of what was inserted by
the whole paths, the boundaries at their ends included: for each path it has what was inserted for
it, in that order, so that nothing is missing or listed twice. Written out, the boundary at the end
of a path is left out. If no two phrases have the same path, the order of the insertions makes no
difference. -/
theorem listing_eq_sorted (phrases : List (Path × Payload)) :
    ((empty : Trie Payload).insertAll phrases).phrases = phrases.mergeSort precedes ∧
      ((empty : Trie Payload).insertAll phrases).entries =
        (phrases.mergeSort precedes).map (fun phrase => (phrase.1.render, phrase.2)) ∧
      (∀ path, ((empty : Trie Payload).insertAll phrases).phrases.filter (·.1 = path) =
        phrases.filter (·.1 = path)) ∧
      ((empty : Trie Payload).insertAll phrases).entries.length =
        ((empty : Trie Payload).insertAll phrases).size ∧
      ∀ others, others.Perm phrases → (phrases.map (·.1)).Nodup →
        ((empty : Trie Payload).insertAll others).entries =
          ((empty : Trie Payload).insertAll phrases).entries := by
  refine ⟨phrases_insertAll phrases, ?_, fun path => ?_, ?_, fun others rearranged distinct => ?_⟩
  · rw [entries, phrases_insertAll]
  · rw [phrases_insertAll, filter_mergeSort_precedes]
  · rw [entries, phrases_insertAll, List.length_map, List.length_mergeSort, size_insertAll]
    exact (Nat.zero_add _).symm
  · rw [entries, entries, phrases_insertAll, phrases_insertAll,
      mergeSort_precedes_of_perm rearranged distinct]

/-- Phrases that share beginnings: `A`, `A # B`, `A_B`, `A B` and one with a synset. -/
def branchingPhrases : List (Path × Nat) :=
  [([.root "A", .boundary, .word "B" .gap], 1), ([.root "A"], 2),
    ([.root "A", .token .synset "&B" .gap], 3), ([.root "A", .word "B" .gap], 4),
    ([.root "A", .word "B" .adjacent], 5)]

theorem listing_branchingPhrases :
    branchingPhrases.reverse.Perm branchingPhrases ∧ (branchingPhrases.map (·.1)).Nodup ∧
      ((empty : Trie Nat).insertAll branchingPhrases).entries =
        [("A_B", 5), ("A B", 4), ("A &B", 3), ("A", 2), ("A # B", 1)] ∧
      ((empty : Trie Nat).insertAll branchingPhrases.reverse).entries =
        ((empty : Trie Nat).insertAll branchingPhrases).entries := by
  have distinct : (branchingPhrases.map (·.1)).Nodup := by decide +kernel
  obtain ⟨-, -, -, -, sameListing⟩ := listing_eq_sorted branchingPhrases
  exact ⟨List.reverse_perm _, distinct, by decide +kernel,
    sameListing _ (List.reverse_perm _) distinct⟩

end Trie

end Codebook
