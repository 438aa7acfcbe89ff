/-
This file says what a trie stores, in terms of paths alone. A path leads to at most one node, and in
a trie that was built by insertions no two paths lead to the same node, so the payloads that a path
leads to (`Trie.stored?`) describe the trie without its node names. An insertion adds one payload at
the end of its path and makes every prefix of it lead somewhere (`stored?_insert`); everything else
stays as it was.
-/

import Codebook.Trie
import Mathlib.Data.List.Induction

namespace Codebook.Trie

variable {Payload : Type}

/-! ### Walking -/

@[simp] theorem walk_nil (trie : Trie Payload) : trie.walk [] = some 0 := rfl

theorem walkFrom_append (trie : Trie Payload) (node : Nat) (front back : Path) :
    trie.walkFrom node (front ++ back) =
      (trie.walkFrom node front).bind fun next => trie.walkFrom next back := by
  induction front generalizing node with
  | nil => rfl
  | cons step rest inductionHypothesis =>
    simp only [List.cons_append, walkFrom, Option.bind_assoc]
    exact congrArg _ (funext fun next => inductionHypothesis next)

theorem walk_append (trie : Trie Payload) (front back : Path) :
    trie.walk (front ++ back) =
      (trie.walk front).bind fun node => trie.walkFrom node back :=
  trie.walkFrom_append 0 front back

/-- A path that is one step longer leads to the child along that step. -/
theorem walk_append_step (trie : Trie Payload) (path : Path) (step : Step) :
    trie.walk (path ++ [step]) = (trie.walk path).bind fun node => trie.child? node step := by
  simp [walk_append, walkFrom]

theorem walk_append_step_eq_some {trie : Trie Payload} {path : Path} {step : Step}
    {child : Nat} :
    trie.walk (path ++ [step]) = some child ↔
      ∃ parent, trie.walk path = some parent ∧ trie.child? parent step = some child := by
  rw [walk_append_step, Option.bind_eq_some_iff]

theorem walk_root (trie : Trie Payload) (word : String) :
    trie.walk [.root word] = trie.root? word := by
  simp [walk, walkFrom, root?]

/-- What leads somewhere also leads somewhere on the way. -/
theorem walk_isSome_of_prefix {trie : Trie Payload} {front path : Path}
    (isPrefix : front <+: path) (leads : (trie.walk path).isSome) : (trie.walk front).isSome := by
  obtain ⟨back, rfl⟩ := isPrefix
  rw [walk_append, Option.isSome_bind] at leads
  cases reached : trie.walk front with
  | none => simp [reached] at leads
  | some node => rfl

/-- What leads nowhere does not lead anywhere further on. -/
theorem walk_eq_none_of_prefix {trie : Trie Payload} {front path : Path} (isPrefix : front <+: path)
    (nowhere : trie.walk front = none) : trie.walk path = none := by
  rw [← Option.not_isSome_iff_eq_none]
  intro leads
  simpa [nowhere] using walk_isSome_of_prefix isPrefix leads

theorem find_eq_nil_of_prefix {trie : Trie Payload} {front path : Path} (isPrefix : front <+: path)
    (nowhere : trie.walk front = none) : trie.find path = [] := by
  simp [find, walk_eq_none_of_prefix isPrefix nowhere]

theorem find_of_walk {trie : Trie Payload} {path : Path} {node : Nat}
    (reached : trie.walk path = some node) :
    trie.find path = trie.terminal node := by
  simp [find, reached]

/-! ### The shape of a trie -/

/-- Children are named after their parents, and no node is the child of two steps. -/
structure WellFormed (trie : Trie Payload) : Prop where
  root_present : 0 < trie.nodeCount
  child_later : ∀ {node step child}, trie.child? node step = some child →
    node < child ∧ child < trie.nodeCount
  parent_unique : ∀ {first second firstStep secondStep child},
    trie.child? first firstStep = some child → trie.child? second secondStep = some child →
      first = second ∧ firstStep = secondStep

/-- A node that is not there has no child. -/
theorem child?_eq_none_of_le {trie : Trie Payload} {node : Nat} (absent : trie.nodeCount ≤ node)
    (step : Step) : trie.child? node step = none := by
  simp [child?, Array.getElem?_eq_none absent]

theorem payloads_eq_nil_of_le {trie : Trie Payload} {node : Nat}
    (absent : trie.nodeCount ≤ node) : trie.payloads node = [] := by
  simp [payloads, Array.getElem?_eq_none absent]

theorem child?_empty (node : Nat) (step : Step) :
    (empty : Trie Payload).child? node step = none := by
  cases node with
  | zero => simp [child?, empty, Node.bare]
  | succ node => exact child?_eq_none_of_le (Nat.le_add_left 1 node) step

theorem wellFormed_empty : (empty : Trie Payload).WellFormed where
  root_present := Nat.one_pos
  child_later found := by simp [child?_empty] at found
  parent_unique found := by simp [child?_empty] at found

/-- A walk ends at a node that is there. -/
theorem WellFormed.walk_lt {trie : Trie Payload} (shape : trie.WellFormed) {path : Path}
    {node : Nat} (reached : trie.walk path = some node) : node < trie.nodeCount := by
  rcases List.eq_nil_or_concat path with rfl | ⟨front, step, rfl⟩
  · rw [walk_nil, Option.some.injEq] at reached
    exact reached ▸ shape.root_present
  · rw [List.concat_eq_append, walk_append_step_eq_some] at reached
    obtain ⟨parent, _, isChild⟩ := reached
    exact (shape.child_later isChild).2

/-- Only the empty path leads to the root. -/
theorem WellFormed.walk_ne_root {trie : Trie Payload} (shape : trie.WellFormed) (path : Path)
    (step : Step) : trie.walk (path ++ [step]) ≠ some 0 := by
  intro reached
  obtain ⟨parent, _, isChild⟩ := walk_append_step_eq_some.mp reached
  exact Nat.not_lt_zero parent (shape.child_later isChild).1

/-- Different paths lead to different nodes. -/
theorem WellFormed.walk_injective {trie : Trie Payload} (shape : trie.WellFormed)
    {first second : Path} {node : Nat} (firstReaches : trie.walk first = some node)
    (secondReaches : trie.walk second = some node) : first = second := by
  induction first using List.reverseRecOn generalizing second node with
  | nil =>
    rcases List.eq_nil_or_concat second with rfl | ⟨front, step, rfl⟩
    · rfl
    · rw [List.concat_eq_append] at secondReaches
      exact absurd (secondReaches.trans firstReaches.symm) (shape.walk_ne_root front step)
  | append_singleton front step inductionHypothesis =>
    rcases List.eq_nil_or_concat second with rfl | ⟨otherFront, otherStep, rfl⟩
    · exact absurd (firstReaches.trans secondReaches.symm) (shape.walk_ne_root front step)
    · rw [List.concat_eq_append, walk_append_step_eq_some] at secondReaches
      obtain ⟨parent, frontReaches, isChild⟩ := walk_append_step_eq_some.mp firstReaches
      obtain ⟨otherParent, otherReaches, isOtherChild⟩ := secondReaches
      obtain ⟨rfl, rfl⟩ := shape.parent_unique isChild isOtherChild
      rw [inductionHypothesis frontReaches otherReaches, List.concat_eq_append]

/-! ### Growing by one step -/

/-- Where there is a child already, nothing grows. -/
theorem grow_of_child {trie : Trie Payload} {node next : Nat} {step : Step}
    (found : trie.child? node step = some next) : trie.grow node step = (trie, next) := by
  simp [grow, found]

/-- Where there is none, a bare node becomes the child. It is named after all other nodes. -/
theorem grow_of_missing {trie : Trie Payload} {node : Nat} {step : Step}
    (missing : trie.child? node step = none) :
    trie.grow node step =
      ({ trie with
          nodes := (trie.nodes.push .bare).modify node fun parent =>
            { parent with children := parent.children.insert step trie.nodeCount } },
        trie.nodeCount) := by
  simp [grow, missing, nodeCount]

/-- Growing changes no payloads. -/
@[simp] theorem payloads_grow (trie : Trie Payload) (node : Nat) (step : Step) (other : Nat) :
    (trie.grow node step).1.payloads other = trie.payloads other := by
  cases found : trie.child? node step with
  | some next => rw [grow_of_child found]
  | none =>
    simp only [grow_of_missing found, payloads, Array.getElem?_modify, Array.getElem?_push]
    by_cases new : other = trie.nodes.size
    · subst new
      by_cases same : node = trie.nodes.size <;> simp [same, Node.bare]
    · by_cases same : node = other <;> simp [same, new, Function.comp_def]

/-- Growing adds one child at most. -/
theorem child?_grow {trie : Trie Payload} {node : Nat} (present : node < trie.nodeCount)
    (step : Step) (other : Nat) (otherStep : Step) :
    (trie.grow node step).1.child? other otherStep =
      if other = node ∧ otherStep = step then some (trie.grow node step).2
      else trie.child? other otherStep := by
  cases found : trie.child? node step with
  | some next =>
    rw [grow_of_child found]
    split
    next same => rw [same.1, same.2, found]
    next => rfl
  | none =>
    rw [grow_of_missing found]
    simp only [child?, Array.getElem?_modify, Array.getElem?_push]
    by_cases new : other = trie.nodes.size
    · subst new
      have different : node ≠ trie.nodes.size := Nat.ne_of_lt present
      simp [different, different.symm, Node.bare]
    · by_cases same : node = other
      · subst same
        rw [if_pos rfl, if_neg new, Array.getElem?_eq_getElem present]
        by_cases sameStep : otherStep = step
        · simp [sameStep]
        · simp [sameStep, SortedMap.get?_insert_of_ne]
      · simp [same, new, Ne.symm same]

/-- Growing keeps the shape, and the node grown to is there. -/
theorem WellFormed.grow {trie : Trie Payload} (shape : trie.WellFormed) {node : Nat}
    (present : node < trie.nodeCount) (step : Step) :
    (trie.grow node step).1.WellFormed ∧
      (trie.grow node step).2 < (trie.grow node step).1.nodeCount := by
  cases found : trie.child? node step with
  | some next =>
    rw [grow_of_child found]
    exact ⟨shape, (shape.child_later found).2⟩
  | none =>
    have named : (trie.grow node step).2 = trie.nodeCount := by rw [grow_of_missing found]
    have count : (trie.grow node step).1.nodeCount = trie.nodeCount + 1 := by
      simp [grow_of_missing found, nodeCount]
    have fresh {other : Nat} {otherStep : Step} :
        trie.child? other otherStep ≠ some trie.nodeCount := fun isChild =>
      Nat.lt_irrefl _ (shape.child_later isChild).2
    refine ⟨⟨by omega, ?later, ?unique⟩, by omega⟩
    case later =>
      intro other otherStep child isChild
      rw [child?_grow present, named] at isChild
      split at isChild
      next same =>
        rw [← Option.some.inj isChild, same.1, count]
        exact ⟨present, Nat.lt_succ_self _⟩
      next =>
        have := shape.child_later isChild
        omega
    case unique =>
      intro first second firstStep secondStep child isFirst isSecond
      rw [child?_grow present, named] at isFirst isSecond
      split at isFirst <;> split at isSecond
      next firstSame secondSame =>
        exact ⟨firstSame.1.trans secondSame.1.symm, firstSame.2.trans secondSame.2.symm⟩
      next => exact absurd (isSecond.trans isFirst.symm) fresh
      next => exact absurd (isFirst.trans isSecond.symm) fresh
      next => exact shape.parent_unique isFirst isSecond

/-- Growing makes one path lead somewhere and changes no other. -/
theorem WellFormed.walk_grow {trie : Trie Payload} (shape : trie.WellFormed) {path : Path}
    {node : Nat} (reached : trie.walk path = some node) (step : Step) (other : Path) :
    (trie.grow node step).1.walk other =
      if other = path ++ [step] then some (trie.grow node step).2 else trie.walk other := by
  cases found : trie.child? node step with
  | some next =>
    rw [grow_of_child found]
    split
    next same => rw [same, walk_append_step_eq_some.mpr ⟨node, reached, found⟩]
    next => rfl
  | none =>
    have present := shape.walk_lt reached
    have named : (trie.grow node step).2 = trie.nodeCount := by rw [grow_of_missing found]
    induction other using List.reverseRecOn with
    | nil => simp
    | append_singleton front last inductionHypothesis =>
      rw [walk_append_step, inductionHypothesis, walk_append_step]
      simp only [List.append_singleton_inj]
      by_cases isNew : front = path ++ [step]
      · -- the new node has no child yet, and no path went through it before
        have longer : front ≠ path := by simp [isNew]
        have missing : trie.walk front = none := by
          rw [isNew, walk_append_step, reached, Option.bind_some, found]
        rw [if_pos isNew, named, Option.bind_some, child?_grow present,
          if_neg fun same => Nat.ne_of_gt present same.1, if_neg fun same => longer same.1, missing,
          child?_eq_none_of_le (Nat.le_refl _), Option.bind_none]
      · rw [if_neg isNew]
        cases frontReaches : trie.walk front with
        | none =>
          have different : front ≠ path := by
            rintro rfl
            simp [reached] at frontReaches
          simp [different]
        | some parent =>
          have sameNode : parent = node ↔ front = path :=
            ⟨fun same => shape.walk_injective frontReaches (same ▸ reached), fun same =>
              Option.some.inj (frontReaches.symm.trans (same ▸ reached))⟩
          rw [Option.bind_some, Option.bind_some, child?_grow present]
          simp only [sameNode]

/-! ### Storage by paths -/

/-- What is stored at the end of a path, if the path leads to a node. -/
def stored? (trie : Trie Payload) (path : Path) : Option (List Payload) :=
  (trie.walk path).map trie.payloads

theorem find_eq_stored? (trie : Trie Payload) (path : Path) :
    trie.find path = (trie.stored? (path ++ [.boundary])).getD [] := by
  rw [find, stored?, walk_append_step]
  cases trie.walk path with
  | none => rfl
  | some node => simp [terminal]

theorem isSome_stored? (trie : Trie Payload) (path : Path) :
    (trie.stored? path).isSome = (trie.walk path).isSome := by
  simp [stored?]

/-- Nothing is stored where the trie has just grown. -/
theorem WellFormed.stored?_grow {trie : Trie Payload} (shape : trie.WellFormed) {path : Path}
    {node : Nat} (reached : trie.walk path = some node) (step : Step) (other : Path) :
    (trie.grow node step).1.stored? other =
      if other = path ++ [step] then some ((trie.stored? other).getD [])
      else trie.stored? other := by
  rw [stored?, stored?, shape.walk_grow reached, funext (payloads_grow trie node step)]
  split
  next same =>
    subst same
    rw [walk_append_step, reached, Option.bind_some]
    cases found : trie.child? node step with
    | some next => simp [grow_of_child found]
    | none => simp [grow_of_missing found, payloads_eq_nil_of_le]
  next => rfl

@[simp] theorem growPath_nil (trie : Trie Payload) (node : Nat) :
    trie.growPath node [] = (trie, node) := rfl

theorem growPath_cons (trie : Trie Payload) (node : Nat) (step : Step) (rest : Path) :
    trie.growPath node (step :: rest) =
      (trie.grow node step).1.growPath (trie.grow node step).2 rest := rfl

/-- Growing along a path keeps the shape, ends where the path leads, and makes exactly the
prefixes of the path lead somewhere that did not before. -/
theorem WellFormed.growPath {trie : Trie Payload} (shape : trie.WellFormed) {front : Path}
    {node : Nat} (reached : trie.walk front = some node) (path : Path) :
    (trie.growPath node path).1.WellFormed ∧
      (trie.growPath node path).1.walk (front ++ path) = some (trie.growPath node path).2 ∧
      ∀ other, (trie.growPath node path).1.stored? other =
        if other <+: front ++ path then some ((trie.stored? other).getD [])
        else trie.stored? other := by
  induction path generalizing trie front node with
  | nil =>
    rw [List.append_nil, growPath_nil]
    refine ⟨shape, reached, fun other => ?_⟩
    split
    next isPrefix =>
      have leads : (trie.stored? other).isSome := by
        rw [isSome_stored?]
        exact walk_isSome_of_prefix isPrefix (by rw [reached, Option.isSome_some])
      obtain ⟨payloads, found⟩ := Option.isSome_iff_exists.mp leads
      rw [found, Option.getD_some]
    next => rfl
  | cons step rest inductionHypothesis =>
    have grownShape := (shape.grow (shape.walk_lt reached) step).1
    have grownReached : (trie.grow node step).1.walk (front ++ [step]) =
        some (trie.grow node step).2 := by
      rw [shape.walk_grow reached, if_pos rfl]
    obtain ⟨endShape, endReached, endStored⟩ := inductionHypothesis grownShape grownReached
    rw [List.append_assoc, List.singleton_append] at endReached endStored
    refine ⟨endShape, endReached, fun other => ?_⟩
    rw [growPath_cons, endStored, shape.stored?_grow reached]
    have between : front ++ [step] <+: front ++ step :: rest := by simp
    by_cases isPrefix : other <+: front ++ step :: rest
    · by_cases isNew : other = front ++ [step] <;> simp [isPrefix, isNew, between]
    · have old : other ≠ front ++ [step] := fun same => isPrefix (same ▸ between)
      simp [isPrefix, old]

/-! ### Insertions -/

/-- An insertion adds the children of growing along its path and no others. -/
theorem child?_insert (trie : Trie Payload) (path : Path) (payload : Payload) (node : Nat)
    (step : Step) :
    (trie.insert path payload).child? node step =
      (trie.growPath 0 (path ++ [.boundary])).1.child? node step := by
  simp only [insert, insertAt, child?, Array.getElem?_modify]
  split
  next =>
    rw [Option.bind_map]
    rfl
  next => rfl

theorem nodeCount_insert (trie : Trie Payload) (path : Path) (payload : Payload) :
    (trie.insert path payload).nodeCount =
      (trie.growPath 0 (path ++ [.boundary])).1.nodeCount := by
  simp [insert, insertAt, nodeCount]

theorem payloads_growPath (trie : Trie Payload) (node : Nat) (path : Path) (other : Nat) :
    (trie.growPath node path).1.payloads other = trie.payloads other := by
  induction path generalizing trie node with
  | nil => rfl
  | cons step rest inductionHypothesis => rw [growPath_cons, inductionHypothesis, payloads_grow]

/-- An insertion adds its payload at the node that growing along its path ends at. -/
theorem payloads_insert {trie : Trie Payload} {path : Path} (payload : Payload)
    (present : (trie.growPath 0 (path ++ [.boundary])).2 <
      (trie.growPath 0 (path ++ [.boundary])).1.nodeCount) (node : Nat) :
    (trie.insert path payload).payloads node =
      if node = (trie.growPath 0 (path ++ [.boundary])).2 then trie.payloads node ++ [payload]
      else trie.payloads node := by
  rw [← payloads_growPath trie 0 (path ++ [.boundary])]
  simp only [insert, insertAt, payloads, Array.getElem?_modify]
  split
  next same =>
    subst same
    rw [if_pos rfl, Array.getElem?_eq_getElem present]
    rfl
  next different => rw [if_neg fun same => different same.symm]

/-- Walks depend on the children alone. -/
theorem walk_congr {trie other : Trie Payload}
    (sameChildren : ∀ node step, trie.child? node step = other.child? node step) (path : Path) :
    trie.walk path = other.walk path := by
  induction path using List.reverseRecOn with
  | nil => rfl
  | append_singleton front step inductionHypothesis =>
    simp only [walk_append_step, inductionHypothesis, sameChildren]

theorem WellFormed.insert {trie : Trie Payload} (shape : trie.WellFormed) (path : Path)
    (payload : Payload) : (trie.insert path payload).WellFormed := by
  obtain ⟨grownShape, -⟩ := shape.growPath trie.walk_nil (path ++ [.boundary])
  constructor <;> simp only [child?_insert, nodeCount_insert]
  · exact grownShape.root_present
  · exact grownShape.child_later
  · exact grownShape.parent_unique

/-- An insertion stores one payload more at the end of its path, makes all its prefixes lead
somewhere, and leaves all other paths as they were. -/
theorem WellFormed.stored?_insert {trie : Trie Payload} (shape : trie.WellFormed) (path : Path)
    (payload : Payload) (other : Path) :
    (trie.insert path payload).stored? other =
      if other = path ++ [.boundary] then some ((trie.stored? other).getD [] ++ [payload])
      else if other <+: path ++ [.boundary] then some ((trie.stored? other).getD [])
      else trie.stored? other := by
  obtain ⟨grownShape, reached, grownStored⟩ :=
    shape.growPath trie.walk_nil (path ++ [.boundary])
  rw [List.nil_append] at reached grownStored
  have sameWalk := walk_congr (trie.child?_insert path payload) other
  have present := grownShape.walk_lt reached
  split
  next same =>
    subst same
    have before := grownStored (path ++ [.boundary])
    rw [if_pos (List.prefix_refl _), stored?, reached, Option.map_some,
      payloads_growPath] at before
    rw [stored?, sameWalk, reached, Option.map_some, payloads_insert payload present, if_pos rfl,
      Option.some.inj before]
  next different =>
    rw [← grownStored, stored?, stored?, sameWalk]
    cases otherReached : (trie.growPath 0 (path ++ [.boundary])).1.walk other with
    | none => rfl
    | some node =>
      have apart : node ≠ (trie.growPath 0 (path ++ [.boundary])).2 := fun same =>
        different (grownShape.walk_injective otherReached (same ▸ reached))
      rw [Option.map_some, Option.map_some, payloads_insert payload present, if_neg apart,
        payloads_growPath]

@[simp] theorem insertAll_nil (trie : Trie Payload) : trie.insertAll [] = trie := rfl

theorem insertAll_cons (trie : Trie Payload) (phrase : Path × Payload)
    (phrases : List (Path × Payload)) :
    trie.insertAll (phrase :: phrases) =
      (trie.insert phrase.1 phrase.2).insertAll phrases := rfl

theorem insertAll_append (trie : Trie Payload) (front back : List (Path × Payload)) :
    trie.insertAll (front ++ back) = (trie.insertAll front).insertAll back :=
  List.foldl_append

theorem WellFormed.insertAll {trie : Trie Payload} (shape : trie.WellFormed)
    (phrases : List (Path × Payload)) : (trie.insertAll phrases).WellFormed := by
  induction phrases generalizing trie with
  | nil => exact shape
  | cons phrase phrases inductionHypothesis =>
    exact inductionHypothesis (shape.insert phrase.1 phrase.2)

/-- After several insertions exactly the prefixes of their paths lead somewhere, and what led
somewhere before. -/
theorem WellFormed.isSome_stored?_insertAll {trie : Trie Payload} (shape : trie.WellFormed)
    (phrases : List (Path × Payload)) (path : Path) :
    ((trie.insertAll phrases).stored? path).isSome ↔
      (trie.stored? path).isSome ∨ ∃ phrase ∈ phrases, path <+: phrase.1 ++ [.boundary] := by
  induction phrases generalizing trie with
  | nil => simp
  | cons phrase phrases inductionHypothesis =>
    have step : ((trie.insert phrase.1 phrase.2).stored? path).isSome ↔
        (trie.stored? path).isSome ∨ path <+: phrase.1 ++ [.boundary] := by
      rw [shape.stored?_insert]
      split
      next same => simp [same]
      next =>
        split
        next isPrefix => simp [isPrefix]
        next noPrefix => simp [noPrefix]
    rw [insertAll_cons, inductionHypothesis (shape.insert phrase.1 phrase.2), step]
    simp [or_assoc]

/-- Several insertions store their payloads, in their order, behind what was stored before. -/
theorem WellFormed.getD_stored?_insertAll {trie : Trie Payload} (shape : trie.WellFormed)
    (phrases : List (Path × Payload)) (path : Path) :
    ((trie.insertAll phrases).stored? path).getD [] =
      (trie.stored? path).getD [] ++
        (phrases.filter fun phrase => phrase.1 ++ [.boundary] = path).map (·.2) := by
  induction phrases generalizing trie with
  | nil => simp
  | cons phrase phrases inductionHypothesis =>
    rw [insertAll_cons, inductionHypothesis (shape.insert phrase.1 phrase.2),
      shape.stored?_insert]
    by_cases same : path = phrase.1 ++ [.boundary]
    · simp [same]
    · have different : phrase.1 ++ [.boundary] ≠ path := fun equal => same equal.symm
      rw [if_neg same, List.filter_cons_of_neg (by simpa using different)]
      split <;> simp

/-! ### What is found -/

/-- In a trie built by insertions, a path leads somewhere if it is empty or a prefix of a path
stored along, the boundary at its end included. -/
theorem walk_insertAll_isSome (phrases : List (Path × Payload)) (path : Path) :
    (((empty : Trie Payload).insertAll phrases).walk path).isSome ↔
      path = [] ∨ ∃ phrase ∈ phrases, path <+: phrase.1 ++ [.boundary] := by
  have atStart : (((empty : Trie Payload).stored? path).isSome ↔ path = []) := by
    rw [isSome_stored?]
    cases path with
    | nil => simp
    | cons step rest => simp [walk, walkFrom, child?_empty]
  rw [← isSome_stored?, wellFormed_empty.isSome_stored?_insertAll, atStart]

theorem find_empty (path : Path) : (empty : Trie Payload).find path = [] := by
  cases path with
  | nil => rfl
  | cons step rest => simp [find, walk, walkFrom, child?_empty]

/-- After several insertions, a path finds what it found before and the payloads inserted for it. -/
theorem WellFormed.find_insertAll {trie : Trie Payload} (shape : trie.WellFormed)
    (phrases : List (Path × Payload)) (path : Path) :
    (trie.insertAll phrases).find path =
      trie.find path ++ (phrases.filter fun phrase => phrase.1 = path).map (·.2) := by
  rw [find_eq_stored?, shape.getD_stored?_insertAll, ← find_eq_stored?]
  simp

theorem WellFormed.find_insert {trie : Trie Payload} (shape : trie.WellFormed) (stored : Path)
    (payload : Payload) (path : Path) :
    (trie.insert stored payload).find path =
      trie.find path ++ if stored = path then [payload] else [] := by
  have single := shape.find_insertAll [(stored, payload)] path
  rw [insertAll_cons, insertAll_nil] at single
  rw [single]
  split <;> simp_all

/-- In a trie built by insertions, a path finds the payloads inserted for it. -/
theorem find_insertAll (phrases : List (Path × Payload)) (path : Path) :
    ((empty : Trie Payload).insertAll phrases).find path =
      (phrases.filter fun phrase => phrase.1 = path).map (·.2) := by
  rw [wellFormed_empty.find_insertAll, find_empty, List.nil_append]

/-- In a trie built by insertions, a path finds a payload exactly if it was inserted for it. -/
theorem mem_find_insertAll {phrases : List (Path × Payload)} {path : Path} {payload : Payload} :
    payload ∈ ((empty : Trie Payload).insertAll phrases).find path ↔ (path, payload) ∈ phrases := by
  rw [find_insertAll, List.mem_map]
  constructor
  · rintro ⟨⟨storedPath, _⟩, member, rfl⟩
    obtain ⟨inserted, same⟩ := List.mem_filter.mp member
    obtain rfl : storedPath = path := by simpa using same
    exact inserted
  · exact fun inserted => ⟨_, List.mem_filter.mpr ⟨inserted, by simp⟩, rfl⟩

/-- A trie is a multimap. After any insertions into an empty trie, a path finds exactly the
payloads inserted for it, in the order of the insertions, and it leads to a node exactly if it is
empty or a prefix of an inserted path with its boundary at the end. -/
theorem insertAll_isMultimap (phrases : List (Path × Payload)) (path : Path) :
    ((empty : Trie Payload).insertAll phrases).find path =
        (phrases.filter fun phrase => phrase.1 = path).map (·.2) ∧
      ((((empty : Trie Payload).insertAll phrases).walk path).isSome ↔
        path = [] ∨ ∃ phrase ∈ phrases, path <+: phrase.1 ++ [.boundary]) :=
  ⟨find_insertAll phrases path, walk_insertAll_isSome phrases path⟩

end Codebook.Trie
