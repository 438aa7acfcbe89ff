/-
This file stores phrases in a trie with every access to a node checked, as a program does that ends
where it would leave the array. A trie from elsewhere can name nodes that are not there. Main
statements: as long as the root and all children are there, no access leaves the array, so that
checking changes nothing (`Trie.insertAllChecked_eq`), and they are all there afterwards
(`Trie.IsClosed.insertAll`).
-/

import Codebook.Proofs.TrieStorage

namespace Codebook

/-- The accesses of a compiler whose place is computed: a node of a trie, a cluster of an actor
dictionary, a word of a verb, and a range of bytes of a text. One that is not there ends the
program. -/
inductive Access
  | node
  | cluster
  | word
  | bytes
deriving DecidableEq, Repr

namespace Access

variable {Item : Type}

/-- What is accessed, which has to be there. -/
def need (access : Access) : Option Item → Except Access Item
  | some item => .ok item
  | none => .error access

/-- Changes the item at an index, which has to be there. -/
def change (access : Access) (items : Array Item) (index : Nat) (update : Item → Item) :
    Except Access (Array Item) :=
  if index < items.size then .ok (items.modify index update) else .error access

/-- Behind an access that is there the program goes on. -/
theorem ok_bind {Value Result : Type} (value : Value) (further : Value → Except Access Result) :
    (Except.ok value >>= further) = further value := rfl

theorem need_of_eq_some {access : Access} {item? : Option Item} {item : Item}
    (there : item? = some item) : access.need item? = .ok item := by
  rw [there, need]

theorem need_of_eq_none {access : Access} {item? : Option Item} (absent : item? = none) :
    access.need item? = .error access := by
  rw [absent, need]

theorem change_eq_ok {access : Access} {items : Array Item} {index : Nat}
    (present : index < items.size) (update : Item → Item) :
    access.change items index update = .ok (items.modify index update) :=
  if_pos present

end Access

namespace Trie

variable {Payload : Type} {trie : Trie Payload}

/-! ### Storing with checks -/

/-- `grow`, which looks at the node and, where it has no such child, changes it. -/
def growChecked (trie : Trie Payload) (node : Nat) (step : Step) :
    Except Access (Trie Payload × Nat) := do
  let parent ← Access.node.need trie.nodes[node]?
  match parent.children.get? step with
  | some next => return (trie, next)
  | none =>
    let next := trie.nodes.size
    let adopt := fun parent : Node Payload =>
      { parent with children := parent.children.insert step next }
    let nodes ← Access.node.change (trie.nodes.push .bare) node adopt
    return ({ trie with nodes }, next)

def growPathChecked (trie : Trie Payload) (node : Nat) :
    Path → Except Access (Trie Payload × Nat)
  | [] => return (trie, node)
  | step :: rest => do
    let (grown, next) ← trie.growChecked node step
    growPathChecked grown next rest

def insertChecked (trie : Trie Payload) (path : Path) (payload : Payload) :
    Except Access (Trie Payload) := do
  let (grown, last) ← trie.growPathChecked 0 (path ++ [.boundary])
  let store := fun node : Node Payload => { node with payloads := node.payloads ++ [payload] }
  let nodes ← Access.node.change grown.nodes last store
  return { nodes, size := grown.size + 1 }

def insertAllChecked (trie : Trie Payload) (phrases : List (Path × Payload)) :
    Except Access (Trie Payload) :=
  phrases.foldlM (fun trie phrase => trie.insertChecked phrase.1 phrase.2) trie

/-! ### Tries without missing nodes -/

/-- The root and every child are there. -/
structure IsClosed (trie : Trie Payload) : Prop where
  root_present : 0 < trie.nodeCount
  child_present : ∀ {node step child}, trie.child? node step = some child →
    child < trie.nodeCount

theorem isClosed_empty : (empty : Trie Payload).IsClosed where
  root_present := Nat.one_pos
  child_present found := by simp [child?_empty] at found

/-- Growing at a node that is there leaves the array nowhere. -/
theorem growChecked_eq {node : Nat} (present : node < trie.nodeCount) (step : Step) :
    trie.growChecked node step = .ok (trie.grow node step) := by
  have there : trie.nodes[node]? = some trie.nodes[node] := Array.getElem?_eq_getElem present
  have child : trie.child? node step = trie.nodes[node].children.get? step := by
    rw [child?, there, Option.bind_some]
  have stillPresent : node < (trie.nodes.push .bare).size := by
    rw [Array.size_push]
    exact Nat.lt_succ_of_lt present
  rw [growChecked, Access.need_of_eq_some there, Access.ok_bind, grow, child]
  cases trie.nodes[node].children.get? step with
  | some next => rfl
  | none =>
    dsimp only
    rw [Access.change_eq_ok stillPresent, Access.ok_bind]
    rfl

/-- At a node that is not there it ends the program. -/
theorem growChecked_eq_error {node : Nat} (absent : trie.nodeCount ≤ node) (step : Step) :
    trie.growChecked node step = .error .node := by
  rw [growChecked, Access.need_of_eq_none (Array.getElem?_eq_none absent)]
  rfl

theorem IsClosed.grow (closed : trie.IsClosed) {node : Nat} (present : node < trie.nodeCount)
    (step : Step) :
    (trie.grow node step).1.IsClosed ∧
      (trie.grow node step).2 < (trie.grow node step).1.nodeCount := by
  cases found : trie.child? node step with
  | some next =>
    rw [grow_of_child found]
    exact ⟨closed, closed.child_present found⟩
  | none =>
    have named : (trie.grow node step).2 = trie.nodeCount := by rw [grow_of_missing found]
    have count : (trie.grow node step).1.nodeCount = trie.nodeCount + 1 := by
      simp [grow_of_missing found, nodeCount]
    refine ⟨⟨by omega, fun {other otherStep child} isChild => ?_⟩, by omega⟩
    rw [child?_grow present, named] at isChild
    split at isChild
    next =>
      obtain rfl := Option.some.inj isChild
      omega
    next =>
      have := closed.child_present isChild
      omega

/-- So does growing along a path, step by step. -/
theorem IsClosed.growPath (closed : trie.IsClosed) {node : Nat} (present : node < trie.nodeCount)
    (path : Path) :
    trie.growPathChecked node path = .ok (trie.growPath node path) ∧
      (trie.growPath node path).1.IsClosed ∧
      (trie.growPath node path).2 < (trie.growPath node path).1.nodeCount := by
  induction path generalizing trie node with
  | nil => exact ⟨rfl, closed, present⟩
  | cons step rest inductionHypothesis =>
    obtain ⟨grownClosed, nextPresent⟩ := closed.grow present step
    obtain ⟨unchecked, endClosed, endPresent⟩ := inductionHypothesis grownClosed nextPresent
    rw [growPath_cons]
    refine ⟨?_, endClosed, endPresent⟩
    rw [growPathChecked, growChecked_eq present, Access.ok_bind, ← unchecked]

/-! ### Insertions -/

theorem insertChecked_eq (closed : trie.IsClosed) (path : Path) (payload : Payload) :
    trie.insertChecked path payload = .ok (trie.insert path payload) := by
  obtain ⟨unchecked, -, lastPresent⟩ := closed.growPath closed.root_present (path ++ [.boundary])
  rw [insertChecked, unchecked, Access.ok_bind]
  dsimp only
  rw [Access.change_eq_ok lastPresent, Access.ok_bind]
  rfl

theorem IsClosed.insert (closed : trie.IsClosed) (path : Path) (payload : Payload) :
    (trie.insert path payload).IsClosed := by
  obtain ⟨-, grownClosed, -⟩ := closed.growPath closed.root_present (path ++ [.boundary])
  constructor <;> simp only [child?_insert, nodeCount_insert]
  · exact grownClosed.root_present
  · exact grownClosed.child_present

/-- What a node holds after an insertion is what it held before or what has been inserted. -/
theorem mem_payloads_insert (closed : trie.IsClosed) {path : Path} {payload other : Payload}
    {node : Nat} (held : other ∈ (trie.insert path payload).payloads node) :
    other ∈ trie.payloads node ∨ other = payload := by
  obtain ⟨-, -, lastPresent⟩ := closed.growPath closed.root_present (path ++ [.boundary])
  rw [payloads_insert payload lastPresent] at held
  split at held
  next => simpa using held
  next => exact .inl held

theorem insertAllChecked_eq (closed : trie.IsClosed) (phrases : List (Path × Payload)) :
    trie.insertAllChecked phrases = .ok (trie.insertAll phrases) := by
  induction phrases generalizing trie with
  | nil => rfl
  | cons phrase rest inductionHypothesis =>
    rw [insertAllChecked, List.foldlM_cons, insertChecked_eq closed, Access.ok_bind]
    exact inductionHypothesis (closed.insert phrase.1 phrase.2)

theorem IsClosed.insertAll (closed : trie.IsClosed) (phrases : List (Path × Payload)) :
    (trie.insertAll phrases).IsClosed := by
  induction phrases generalizing trie with
  | nil => exact closed
  | cons phrase rest inductionHypothesis =>
    exact inductionHypothesis (closed.insert phrase.1 phrase.2)

end Trie

end Codebook
