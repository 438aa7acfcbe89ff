/-
This file describes the nodes of a trie that was built by insertions. They form a tree that is
numbered from the root outwards and has one node for each path that is the beginning of a stored
one, and payloads lie behind boundaries only. So whoever lists the trie by going from node to node
never leaves the array, has a boundary to cut off wherever there is a payload, and comes to an end
(`Trie.Lists`). Main statement: all of this holds after any insertions
(`Trie.insertAll_isArenaOf`).
-/

import Codebook.Proofs.TrieNodes
import Mathlib.Algebra.BigOperators.Group.Finset.Piecewise
import Mathlib.Data.Finset.Card

namespace Codebook.Trie

variable {Payload : Type}

/-! ### Children -/

/-- The children of a node are those its steps lead to. -/
theorem mem_children {trie : Trie Payload} {node : Nat} {step : Step} {child : Nat} :
    (step, child) ∈ trie.children node ↔ trie.child? node step = some child := by
  unfold children child?
  cases trie.nodes[node]? with
  | none => simp
  | some found => exact SortedMap.mem_entries_iff

/-- Growing takes no node away. -/
theorem nodeCount_le_grow (trie : Trie Payload) (node : Nat) (step : Step) :
    trie.nodeCount ≤ (trie.grow node step).1.nodeCount := by
  cases found : trie.child? node step with
  | some next => rw [grow_of_child found]
  | none => simp [grow_of_missing found, nodeCount]

theorem nodeCount_le_growPath (trie : Trie Payload) (node : Nat) (path : Path) :
    trie.nodeCount ≤ (trie.growPath node path).1.nodeCount := by
  induction path generalizing trie node with
  | nil => exact Nat.le_refl _
  | cons step rest inductionHypothesis =>
    exact (trie.nodeCount_le_grow node step).trans (inductionHypothesis _ _)

/-! ### The number of payloads -/

/-- How many payloads all nodes hold together. -/
def heldCount (trie : Trie Payload) : Nat :=
  ∑ node ∈ Finset.range trie.nodeCount, (trie.payloads node).length

/-- Nodes that are not there would not count. -/
theorem heldCount_eq_sum {trie : Trie Payload} {bound : Nat} (enough : trie.nodeCount ≤ bound) :
    trie.heldCount = ∑ node ∈ Finset.range bound, (trie.payloads node).length := by
  refine Finset.sum_subset (Finset.range_mono enough) fun node _ absent => ?_
  rw [payloads_eq_nil_of_le (by simpa using absent), List.length_nil]

theorem WellFormed.heldCount_insert {trie : Trie Payload} (shape : trie.WellFormed) (path : Path)
    (payload : Payload) : (trie.insert path payload).heldCount = trie.heldCount + 1 := by
  obtain ⟨grownShape, reached, -⟩ := shape.growPath trie.walk_nil (path ++ [.boundary])
  have present := grownShape.walk_lt reached
  have more (node : Nat) : ((trie.insert path payload).payloads node).length =
      (trie.payloads node).length +
        if node = (trie.growPath 0 (path ++ [.boundary])).2 then 1 else 0 := by
    rw [payloads_insert payload present]
    split <;> simp
  rw [heldCount_eq_sum (trie.nodeCount_le_growPath 0 (path ++ [.boundary])), heldCount,
    nodeCount_insert, Finset.sum_congr rfl fun node _ => more node, Finset.sum_add_distrib,
    Finset.sum_ite_eq', if_pos (Finset.mem_range.mpr present)]

/-- The size of a trie counts its payloads. -/
theorem size_insertAll_eq_heldCount (phrases : List (Path × Payload)) :
    ((empty : Trie Payload).insertAll phrases).size =
      ((empty : Trie Payload).insertAll phrases).heldCount := by
  refine (List.foldlRecOn (motive := fun trie : Trie Payload =>
    trie.WellFormed ∧ trie.size = trie.heldCount) phrases _ ⟨wellFormed_empty, rfl⟩ ?_).2
  rintro trie ⟨shape, counted⟩ phrase -
  exact ⟨shape.insert _ _, by rw [size_insert, shape.heldCount_insert, counted]⟩

/-! ### The number of nodes -/

/-- The paths, apart from the empty one, that stored paths begin with. The boundary at the end of a
stored path belongs to it. -/
def prefixes (phrases : List (Path × Payload)) : Finset Path :=
  (phrases.flatMap fun phrase => (phrase.1 ++ [.boundary]).inits).toFinset.erase []

theorem mem_prefixes {phrases : List (Path × Payload)} {path : Path} :
    path ∈ prefixes phrases ↔
      path ≠ [] ∧ ∃ phrase ∈ phrases, path <+: phrase.1 ++ [.boundary] := by
  simp only [prefixes, Finset.mem_erase, List.mem_toFinset, List.mem_flatMap, List.mem_inits]

variable (phrases : List (Path × Payload))

/-- The paths that lead somewhere are the beginnings of the stored ones. -/
theorem walk_insertAll_isSome_iff_mem (path : Path) :
    (((empty : Trie Payload).insertAll phrases).walk path).isSome ↔
      path = [] ∨ path ∈ prefixes phrases := by
  rw [walk_insertAll_isSome, mem_prefixes]
  by_cases noPath : path = [] <;> simp [noPath]

/-- Beginnings that stored paths have in common share their nodes. -/
theorem nodeCount_insertAll :
    ((empty : Trie Payload).insertAll phrases).nodeCount = 1 + (prefixes phrases).card := by
  let trie := (empty : Trie Payload).insertAll phrases
  have shape : trie.WellFormed := wellFormed_empty.insertAll phrases
  have noEmpty : [] ∉ prefixes phrases := fun member => (mem_prefixes.mp member).1 rfl
  let beginnings := (prefixes phrases).cons [] noEmpty
  let nodeOf := fun path => (trie.walk path).getD 0
  have isSome_iff (path : Path) : (trie.walk path).isSome ↔ path ∈ beginnings := by
    rw [Finset.mem_cons]
    exact walk_insertAll_isSome_iff_mem phrases path
  have leads {path : Path} (isBeginning : path ∈ beginnings) :
      trie.walk path = some (nodeOf path) := by
    obtain ⟨node, found⟩ := Option.isSome_iff_exists.mp ((isSome_iff path).mpr isBeginning)
    simp only [nodeOf, found, Option.getD_some]
  have injective : Set.InjOn nodeOf beginnings := by
    intro first isFirst second isSecond same
    exact shape.walk_injective (leads isFirst) (same ▸ leads isSecond)
  have all : beginnings.image nodeOf = Finset.range trie.nodeCount := by
    ext node
    rw [Finset.mem_image, Finset.mem_range]
    constructor
    · rintro ⟨path, isBeginning, rfl⟩
      exact shape.walk_lt (leads isBeginning)
    · intro present
      obtain ⟨path, reached⟩ := reached_empty.insertAll wellFormed_empty phrases node present
      have found : trie.walk path = some node := reached
      refine ⟨path, (isSome_iff path).mp (by rw [found, Option.isSome_some]), ?_⟩
      simp only [nodeOf, found, Option.getD_some]
  calc trie.nodeCount
    _ = (Finset.range trie.nodeCount).card := (Finset.card_range _).symm
    _ = beginnings.card := by rw [← all, Finset.card_image_of_injOn injective]
    _ = 1 + (prefixes phrases).card := by rw [Finset.card_cons, Nat.add_comm]

/-! ### What single nodes hold -/

variable {phrases} {node : Nat}

/-- A payload lies behind a boundary. -/
theorem exists_boundary_of_payloads
    (held : ((empty : Trie Payload).insertAll phrases).payloads node ≠ []) :
    ∃ parent, (.boundary, node) ∈ ((empty : Trie Payload).insertAll phrases).children parent := by
  obtain ⟨payload, member⟩ := List.exists_mem_of_ne_nil _ held
  obtain ⟨path, -, leads⟩ := exists_mem_of_mem_payloads member
  obtain ⟨parent, -, isChild⟩ := walk_append_step_eq_some.mp leads
  exact ⟨parent, mem_children.mpr isChild⟩

/-- Where no further step leads on, a stored path ends. -/
theorem payloads_ne_nil_of_leaf (notRoot : 0 < node)
    (present : node < ((empty : Trie Payload).insertAll phrases).nodeCount)
    (isLeaf : ((empty : Trie Payload).insertAll phrases).children node = []) :
    ((empty : Trie Payload).insertAll phrases).payloads node ≠ [] := by
  obtain ⟨path, leads⟩ := reached_empty.insertAll wellFormed_empty phrases node present
  have found : (((empty : Trie Payload).insertAll phrases).walk path).isSome := by
    rw [leads, Option.isSome_some]
  rcases (walk_insertAll_isSome phrases path).mp found with rfl | ⟨phrase, inserted, back, whole⟩
  · rw [walk_nil, Option.some.injEq] at leads
    exact absurd leads (Nat.ne_of_lt notRoot)
  · cases back with
    | nil =>
      have held : phrase.2 ∈ ((empty : Trie Payload).insertAll phrases).find phrase.1 :=
        mem_find_insertAll.mpr inserted
      obtain ⟨other, otherLeads, member⟩ := mem_find_iff.mp held
      rw [← whole, List.append_nil, leads, Option.some.injEq] at otherLeads
      exact List.ne_nil_of_mem (otherLeads ▸ member)
    | cons step rest =>
      have further : (((empty : Trie Payload).insertAll phrases).walk (path ++ [step])).isSome :=
        (walk_insertAll_isSome phrases _).mpr (.inr ⟨phrase, inserted, rest, by simpa using whole⟩)
      obtain ⟨child, childLeads⟩ := Option.isSome_iff_exists.mp further
      obtain ⟨parent, parentLeads, isChild⟩ := walk_append_step_eq_some.mp childLeads
      obtain rfl := Option.some.inj (leads.symm.trans parentLeads)
      exact absurd (mem_children.mpr isChild) (isLeaf ▸ List.not_mem_nil)

/-! ### Listing -/

/-- Going through the trie from a node, to which the given path leads, lists the given payloads with
their paths. The way is not limited to any depth; it has to find every node it comes to, and a
boundary at the end of the path wherever there is a payload. -/
inductive Lists (trie : Trie Payload) : Nat → Path → List (Path × Payload) → Prop
  | visit {node : Nat} {path : Path} (present : node < trie.nodeCount)
    (boundary : trie.payloads node ≠ [] → path.getLast? = some .boundary)
    (below : Step → Nat → List (Path × Payload))
    (each : ∀ step child, (step, child) ∈ trie.children node →
      Lists trie child (path ++ [step]) (below step child)) :
    Lists trie node path
      ((trie.payloads node).map (path.dropLast, ·) ++
        (trie.children node).flatMap fun edge => below edge.1 edge.2)

/-- Payloads lie behind boundaries only. -/
def BoundaryHeld (trie : Trie Payload) : Prop :=
  ∀ node step child, trie.child? node step = some child → trie.payloads child ≠ [] →
    step = .boundary

/-- As many levels as there are nodes behind a node are enough for all that is below it. -/
theorem WellFormed.lists {trie : Trie Payload} (shape : trie.WellFormed) (held : trie.BoundaryHeld)
    {levels node : Nat} {path : Path} (present : node < trie.nodeCount)
    (enough : trie.nodeCount ≤ levels + node)
    (boundary : trie.payloads node ≠ [] → path.getLast? = some .boundary) :
    trie.Lists node path (trie.phrasesBelow levels node path) := by
  induction levels generalizing node path with
  | zero => omega
  | succ levels inductionHypothesis =>
    refine .visit present boundary
      (fun step child => trie.phrasesBelow levels child (path ++ [step])) ?_
    intro step child isEdge
    have isChild := mem_children.mp isEdge
    obtain ⟨later, childPresent⟩ := shape.child_later isChild
    refine inductionHypothesis childPresent (by omega) fun holds => ?_
    rw [held node step child isChild holds, List.getLast?_concat]

theorem WellFormed.isSoundBelow {trie : Trie Payload} (shape : trie.WellFormed) {levels node : Nat}
    (present : node < trie.nodeCount) (enough : trie.nodeCount ≤ levels + node) :
    trie.isSoundBelow levels node = true := by
  induction levels generalizing node with
  | zero => omega
  | succ levels inductionHypothesis =>
    rw [Trie.isSoundBelow, Bool.and_eq_true, decide_eq_true_eq, List.all_eq_true]
    refine ⟨present, fun ⟨step, child⟩ isEdge => ?_⟩
    obtain ⟨later, childPresent⟩ := shape.child_later (mem_children.mp isEdge)
    exact inductionHypothesis childPresent (by omega)

/-! ### After any insertions -/

/-- The array of a trie that holds the given phrases. -/
structure IsArenaOf (phrases : List (Path × Payload)) (trie : Trie Payload) : Prop where
  child_later {node child : Nat} {step : Step} : (step, child) ∈ trie.children node →
    node < child ∧ child < trie.nodeCount
  parent_unique {node : Nat} : 0 < node → node < trie.nodeCount →
    ∃! edge : Nat × Step, (edge.2, node) ∈ trie.children edge.1
  root_bare : trie.payloads 0 = []
  held_behind_boundary {node : Nat} : trie.payloads node ≠ [] →
    ∃ parent, (.boundary, node) ∈ trie.children parent
  leaf_holds {node : Nat} : 0 < node → node < trie.nodeCount → trie.children node = [] →
    trie.payloads node ≠ []
  size_eq : trie.size = trie.heldCount
  nodeCount_eq : trie.nodeCount = 1 + (prefixes phrases).card
  /-- The listing is what an unlimited walk through the nodes lists. -/
  lists : trie.Lists 0 [] trie.phrases
  listable : trie.size < listingLimit → trie.isListable = true

/-- After any insertions into an empty trie, its nodes form a tree numbered from the root outwards,
with one node for each beginning of a stored path, payloads behind boundaries and at all leaves, and
a listing that comes to its end without leaving the array. -/
theorem insertAll_isArenaOf (phrases : List (Path × Payload)) :
    ((empty : Trie Payload).insertAll phrases).IsArenaOf phrases := by
  have emptyShape : (empty : Trie Payload).WellFormed := wellFormed_empty
  have shape := emptyShape.insertAll phrases
  have rootBare : ((empty : Trie Payload).insertAll phrases).payloads 0 = [] := by
    by_contra held
    obtain ⟨parent, isEdge⟩ := exists_boundary_of_payloads held
    exact Nat.not_lt_zero parent (shape.child_later (mem_children.mp isEdge)).1
  have held : ((empty : Trie Payload).insertAll phrases).BoundaryHeld := by
    intro node step child isChild holds
    obtain ⟨parent, isEdge⟩ := exists_boundary_of_payloads holds
    exact (shape.parent_unique isChild (mem_children.mp isEdge)).2
  refine {
    child_later := fun isEdge => shape.child_later (mem_children.mp isEdge)
    parent_unique := ?_
    root_bare := rootBare
    held_behind_boundary := exists_boundary_of_payloads
    leaf_holds := payloads_ne_nil_of_leaf
    size_eq := size_insertAll_eq_heldCount phrases
    nodeCount_eq := nodeCount_insertAll phrases
    lists := shape.lists held shape.root_present (Nat.le_refl _) (absurd rootBare)
    listable := ?_ }
  · intro node notRoot present
    obtain ⟨path, leads⟩ := reached_empty.insertAll wellFormed_empty phrases node present
    rcases List.eq_nil_or_concat path with rfl | ⟨front, step, rfl⟩
    · rw [walk_nil, Option.some.injEq] at leads
      exact absurd leads (Nat.ne_of_lt notRoot)
    · rw [List.concat_eq_append, walk_append_step_eq_some] at leads
      obtain ⟨parent, -, isChild⟩ := leads
      refine ⟨(parent, step), mem_children.mpr isChild, fun edge isEdge => ?_⟩
      have same := shape.parent_unique (mem_children.mp isEdge) isChild
      exact Prod.ext same.1 same.2
  · intro room
    have sound : ((empty : Trie Payload).insertAll phrases).isSoundBelow
        ((empty : Trie Payload).insertAll phrases).nodeCount 0 = true :=
      shape.isSoundBelow shape.root_present (Nat.le_refl _)
    rw [isListable, rootBare, sound]
    simpa using room

end Codebook.Trie
