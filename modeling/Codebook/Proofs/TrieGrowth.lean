/-
This file says that the names of nodes stay good while a trie grows. One step of growth adds a child
where there was none, and that child is a node that was not there before; a payload is stored behind
those stored before it. So whatever is inserted later, a node keeps its name, its children and the
payloads it has (`Trie.LastsIn`), and a single insertion touches nothing that is not on its path
(`Trie.IsInsertion`). Main statement: both hold of every trie built by insertions
(`Trie.nodes_last`).
-/

import Codebook.Proofs.TrieArena

namespace Codebook.Trie

variable {Payload : Type}

/-! ### What lasts -/

/-- What is known of the nodes of a trie is still good in a later one: no node is taken away, every
child keeps its name, and payloads are only added behind others. What becomes a child is a node that
was not there. -/
structure LastsIn (earlier later : Trie Payload) : Prop where
  nodeCount_le : earlier.nodeCount ≤ later.nodeCount
  child_kept {node child : Nat} {step : Step} :
    earlier.child? node step = some child → later.child? node step = some child
  child_new {node child : Nat} {step : Step} :
    earlier.child? node step = none → later.child? node step = some child →
      earlier.nodeCount ≤ child
  payloads_kept (node : Nat) : earlier.payloads node <+: later.payloads node

namespace LastsIn

theorem refl (trie : Trie Payload) : trie.LastsIn trie where
  nodeCount_le := Nat.le_refl _
  child_kept isChild := isChild
  child_new missing isChild := by
    rw [missing] at isChild
    cases isChild
  payloads_kept _ := List.prefix_refl _

theorem trans {first second third : Trie Payload} (front : first.LastsIn second)
    (back : second.LastsIn third) : first.LastsIn third where
  nodeCount_le := front.nodeCount_le.trans back.nodeCount_le
  child_kept isChild := back.child_kept (front.child_kept isChild)
  child_new {node child step} missing isChild := by
    cases between : second.child? node step with
    | none => exact front.nodeCount_le.trans (back.child_new between isChild)
    | some other =>
      obtain rfl := Option.some.inj ((back.child_kept between).symm.trans isChild)
      exact front.child_new missing between
  payloads_kept node := (front.payloads_kept node).trans (back.payloads_kept node)

end LastsIn

variable {trie : Trie Payload} {node : Nat}

/-- One step of growth: the node it adds, if it adds one, is named after all others. -/
theorem lastsIn_grow (present : node < trie.nodeCount) (step : Step) :
    trie.LastsIn (trie.grow node step).1 := by
  cases found : trie.child? node step with
  | some next =>
    rw [grow_of_child found]
    exact .refl trie
  | none =>
    have named : (trie.grow node step).2 = trie.nodeCount := by rw [grow_of_missing found]
    refine ⟨trie.nodeCount_le_grow node step, ?kept, ?new, fun other => ?payloads⟩
    case kept =>
      intro other child otherStep isChild
      rw [child?_grow present, if_neg, isChild]
      rintro ⟨rfl, rfl⟩
      rw [found] at isChild
      cases isChild
    case new =>
      intro other child otherStep missing isChild
      rw [child?_grow present, named] at isChild
      split at isChild
      next => exact Nat.le_of_eq (Option.some.inj isChild)
      next =>
        rw [missing] at isChild
        cases isChild
    case payloads =>
      rw [payloads_grow]

theorem WellFormed.lastsIn_growPath (shape : trie.WellFormed) (present : node < trie.nodeCount)
    (path : Path) : trie.LastsIn (trie.growPath node path).1 := by
  induction path generalizing trie node with
  | nil => exact .refl trie
  | cons step rest inductionHypothesis =>
    obtain ⟨grownShape, grownPresent⟩ := shape.grow present step
    exact (lastsIn_grow present step).trans (inductionHypothesis grownShape grownPresent)

/-! ### Where children are added -/

/-- Growing along a path adds a child where its next step led nowhere, and nowhere else. -/
theorem WellFormed.isSome_child?_growPath (shape : trie.WellFormed)
    (present : node < trie.nodeCount) (path : Path) {other : Nat} {step : Step}
    (missing : trie.child? other step = none) :
    ((trie.growPath node path).1.child? other step).isSome ↔
      ∃ front, front ++ [step] <+: path ∧
        (trie.growPath node path).1.walkFrom node front = some other := by
  induction path generalizing trie node with
  | nil => simp [missing]
  | cons first rest inductionHypothesis =>
    obtain ⟨grownShape, grownPresent⟩ := shape.grow present first
    have isFirst : ((trie.grow node first).1.growPath (trie.grow node first).2 rest).1.child?
        node first = some (trie.grow node first).2 := by
      refine (grownShape.lastsIn_growPath grownPresent rest).child_kept ?_
      rw [child?_grow present, if_pos ⟨rfl, rfl⟩]
    rw [growPath_cons]
    by_cases here : other = node ∧ step = first
    · obtain ⟨rfl, rfl⟩ := here
      rw [isFirst, Option.isSome_some]
      exact iff_of_true rfl ⟨[], by simp, rfl⟩
    · have stillMissing : (trie.grow node first).1.child? other step = none := by
        rw [child?_grow present, if_neg here, missing]
      rw [inductionHypothesis grownShape grownPresent stillMissing]
      constructor
      · rintro ⟨front, isPrefix, leads⟩
        refine ⟨first :: front, by simpa using isPrefix, ?_⟩
        rw [walkFrom, isFirst, Option.bind_some, leads]
      · rintro ⟨_ | ⟨_, front⟩, isPrefix, leads⟩
        · -- without a step before it, the way on is the first step from the start
          obtain ⟨rfl, -⟩ := List.cons_prefix_cons.mp isPrefix
          exact absurd ⟨(Option.some.inj leads).symm, rfl⟩ here
        · obtain ⟨rfl, restPrefix⟩ := List.cons_prefix_cons.mp isPrefix
          rw [walkFrom, isFirst, Option.bind_some] at leads
          exact ⟨front, restPrefix, leads⟩

/-- A path, with the boundary at its end, comes to a node and goes on with a step. -/
def GoesOn (trie : Trie Payload) (path : Path) (node : Nat) (step : Step) : Prop :=
  ∃ front, front ++ [step] <+: path ++ [.boundary] ∧ trie.walk front = some node

/-- A path comes to a node once at most, so it goes on from there with one step. -/
theorem WellFormed.goesOn_unique (shape : trie.WellFormed) {path : Path} {step other : Step}
    (goesOn : trie.GoesOn path node step) (goesOnOther : trie.GoesOn path node other) :
    step = other := by
  obtain ⟨front, isPrefix, leads⟩ := goesOn
  obtain ⟨otherFront, isOtherPrefix, otherLeads⟩ := goesOnOther
  obtain rfl := shape.walk_injective leads otherLeads
  have same : front ++ [step] = front ++ [other] :=
    (List.prefix_of_prefix_length_le isPrefix isOtherPrefix (by simp)).eq_of_length (by simp)
  simpa using same

/-! ### Insertions -/

theorem WellFormed.walk_insertAt (shape : trie.WellFormed) (path : Path) (payload : Payload) :
    (trie.insertAt path payload).1.walk (path ++ [.boundary]) =
      some (trie.insertAt path payload).2 :=
  (walk_congr (trie.child?_insert path payload) _).trans
    (shape.growPath trie.walk_nil (path ++ [.boundary])).2.1

theorem WellFormed.payloads_insertAt (shape : trie.WellFormed) (path : Path) (payload : Payload)
    (node : Nat) :
    (trie.insertAt path payload).1.payloads node =
      if node = (trie.insertAt path payload).2 then trie.payloads node ++ [payload]
      else trie.payloads node := by
  refine payloads_insert payload ?_ node
  rw [← nodeCount_insert trie path payload]
  exact (shape.insert path payload).walk_lt (shape.walk_insertAt path payload)

theorem WellFormed.lastsIn_insert (shape : trie.WellFormed) (path : Path) (payload : Payload) :
    trie.LastsIn (trie.insert path payload) := by
  have grown := shape.lastsIn_growPath shape.root_present (path ++ [.boundary])
  refine ⟨?nodeCount_le, ?child_kept, ?child_new, fun node => ?payloads_kept⟩
  case payloads_kept =>
    rw [Trie.insert, shape.payloads_insertAt]
    split
    next => exact List.prefix_append _ _
    next => exact List.prefix_refl _
  all_goals simp only [child?_insert, nodeCount_insert]
  case nodeCount_le => exact grown.nodeCount_le
  case child_kept => exact grown.child_kept
  case child_new => exact grown.child_new

theorem WellFormed.lastsIn_insertAll (shape : trie.WellFormed)
    (phrases : List (Path × Payload)) : trie.LastsIn (trie.insertAll phrases) := by
  induction phrases generalizing trie with
  | nil => exact .refl trie
  | cons phrase rest inductionHypothesis =>
    exact (shape.lastsIn_insert phrase.1 phrase.2).trans
      (inductionHypothesis (shape.insert phrase.1 phrase.2))

/-- A child is added to a node along a step. -/
def AddsChild (before after : Trie Payload) (node : Nat) (step : Step) : Prop :=
  before.child? node step = none ∧ (after.child? node step).isSome

/-- What the insertion of a payload for a path does to the nodes of a trie, where the payload ends
up in the node `holder`. -/
structure IsInsertion (before : Trie Payload) (path : Path) (payload : Payload)
    (after : Trie Payload) (holder : Nat) : Prop where
  lasts : before.LastsIn after
  leads : after.walk (path ++ [.boundary]) = some holder
  payloads_holder : after.payloads holder = before.payloads holder ++ [payload]
  /-- The payloads of one node change, and of no other. -/
  payloads_ne_iff {node : Nat} : after.payloads node ≠ before.payloads node ↔ node = holder
  /-- Children are added to the nodes from which the path could not go on, and to no others. -/
  addsChild_iff {node : Nat} {step : Step} : before.AddsChild after node step ↔
    before.child? node step = none ∧ after.GoesOn path node step
  one_child {node : Nat} {step other : Step} : before.AddsChild after node step →
    before.AddsChild after node other → step = other

theorem WellFormed.addsChild_insert_iff (shape : trie.WellFormed) (path : Path)
    (payload : Payload) {step : Step} : trie.AddsChild (trie.insert path payload) node step ↔
      trie.child? node step = none ∧ (trie.insert path payload).GoesOn path node step := by
  refine and_congr_right fun missing => ?_
  have sameWalk := walk_congr (trie.child?_insert path payload)
  simp only [child?_insert, GoesOn, sameWalk]
  exact shape.isSome_child?_growPath shape.root_present _ missing

theorem WellFormed.isInsertion (shape : trie.WellFormed) (path : Path) (payload : Payload) :
    trie.IsInsertion path payload (trie.insertAt path payload).1
      (trie.insertAt path payload).2 where
  lasts := shape.lastsIn_insert path payload
  leads := shape.walk_insertAt path payload
  payloads_holder := by rw [shape.payloads_insertAt, if_pos rfl]
  payloads_ne_iff {node} := by
    rw [shape.payloads_insertAt]
    split
    next same => exact iff_of_true (by simp) same
    next different => exact iff_of_false (by simp) different
  addsChild_iff := shape.addsChild_insert_iff path payload
  one_child adds addsOther :=
    (shape.insert path payload).goesOn_unique ((shape.addsChild_insert_iff path payload).mp adds).2
      ((shape.addsChild_insert_iff path payload).mp addsOther).2

/-- Whatever is inserted into a trie that was built by insertions, what is known of its nodes stays
good, and each insertion stores its payload in one node and adds children only to the nodes of its
path from which the path could not go on, one to each. -/
theorem nodes_last (phrases more : List (Path × Payload)) (path : Path) (payload : Payload) :
    let trie := (empty : Trie Payload).insertAll phrases
    trie.LastsIn (trie.insertAll more) ∧
      trie.IsInsertion path payload (trie.insertAt path payload).1
        (trie.insertAt path payload).2 := by
  intro trie
  have shape : trie.WellFormed := wellFormed_empty.insertAll phrases
  exact ⟨shape.lastsIn_insertAll more, shape.isInsertion path payload⟩

end Codebook.Trie
