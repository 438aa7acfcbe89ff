/-
This file defines the trie that holds the phrases of a dictionary. Its nodes live in an array and
are named by their index; node 0 is the root. A phrase is stored along its path, with a boundary
added at the end, and the node behind that boundary holds what was stored for it. Nodes are only
ever added, so the name of a node stays good, and the numbering depends on nothing but the order
of the insertions.
-/

import Codebook.Path
import Codebook.SortedMap

namespace Codebook

/-- A node: the names of its children and the payloads of the paths that end in it. -/
structure Node (Payload : Type) where
  children : SortedMap Step Nat
  payloads : List Payload
deriving DecidableEq

def Node.bare {Payload : Type} : Node Payload :=
  ⟨.empty, []⟩

instance {Payload : Type} : Inhabited (Node Payload) := ⟨.bare⟩

/-- A trie and the number of phrases stored in it. -/
structure Trie (Payload : Type) where
  nodes : Array (Node Payload)
  size : Nat
deriving DecidableEq

namespace Trie

variable {Payload : Type}

def empty : Trie Payload :=
  ⟨#[.bare], 0⟩

instance : Inhabited (Trie Payload) := ⟨empty⟩

def nodeCount (trie : Trie Payload) : Nat :=
  trie.nodes.size

def isEmpty (trie : Trie Payload) : Bool :=
  trie.size == 0

/-! ### Walking -/

def child? (trie : Trie Payload) (node : Nat) (step : Step) : Option Nat :=
  trie.nodes[node]?.bind (·.children.get? step)

/-- The child of the root along `word`. -/
def root? (trie : Trie Payload) (word : String) : Option Nat :=
  trie.child? 0 (.root word)

/-- The children of `node`, in the order of the steps to them. -/
def children (trie : Trie Payload) (node : Nat) : List (Step × Nat) :=
  (trie.nodes[node]?.map (·.children.entries)).getD []

def payloads (trie : Trie Payload) (node : Nat) : List Payload :=
  (trie.nodes[node]?.map (·.payloads)).getD []

/-- The node that `path` leads to from `node`. -/
def walkFrom (trie : Trie Payload) (node : Nat) : Path → Option Nat
  | [] => some node
  | step :: rest => (trie.child? node step).bind fun next => walkFrom trie next rest

/-- The node that `path` leads to from the root. -/
def walk (trie : Trie Payload) (path : Path) : Option Nat :=
  trie.walkFrom 0 path

/-- What is stored for the paths that end at `node`. -/
def terminal (trie : Trie Payload) (node : Nat) : List Payload :=
  ((trie.child? node .boundary).map trie.payloads).getD []

/-- What is stored for exactly `path`, in the order of the insertions. -/
def find (trie : Trie Payload) (path : Path) : List Payload :=
  ((trie.walk path).map trie.terminal).getD []

/-! ### Running text -/

/-- What is stored for a path from `node` that spells `words`. Neighbours in running text satisfy
either link, so both are tried, the adjacent one first. -/
def findWordsFrom (trie : Trie Payload) (node : Nat) : List String → List Payload
  | [] => trie.terminal node
  | word :: rest =>
    let along := fun link =>
      ((trie.child? node (.word (Text.upper word) link)).map fun next =>
        findWordsFrom trie next rest).getD []
    let close := along .adjacent
    if close.isEmpty then along .gap else close

/-- What is stored for a phrase of running text. -/
def findWords (trie : Trie Payload) (words : List String) : List Payload :=
  trie.findWordsFrom 0 words

/-! ### Storing -/

/-- The child of `node` along `step`, which is added if there is none. -/
def grow (trie : Trie Payload) (node : Nat) (step : Step) : Trie Payload × Nat :=
  match trie.child? node step with
  | some next => (trie, next)
  | none =>
    let next := trie.nodes.size
    let adopt := fun parent : Node Payload =>
      { parent with children := parent.children.insert step next }
    ({ trie with nodes := (trie.nodes.push .bare).modify node adopt }, next)

/-- The node at the end of `path` from `node`, with the nodes on the way added as needed. -/
def growPath (trie : Trie Payload) (node : Nat) : Path → Trie Payload × Nat
  | [] => (trie, node)
  | step :: rest =>
    let (grown, next) := trie.grow node step
    growPath grown next rest

/-- Stores `payload` for `path`, behind everything stored for it before, and names the node that
holds it. -/
def insertAt (trie : Trie Payload) (path : Path) (payload : Payload) : Trie Payload × Nat :=
  let (grown, last) := trie.growPath 0 (path ++ [.boundary])
  let store := fun node : Node Payload => { node with payloads := node.payloads ++ [payload] }
  ({ nodes := grown.nodes.modify last store, size := grown.size + 1 }, last)

def insert (trie : Trie Payload) (path : Path) (payload : Payload) : Trie Payload :=
  (trie.insertAt path payload).1

/-- Stores several payloads, each for its path, from first to last. -/
def insertAll (trie : Trie Payload) (phrases : List (Path × Payload)) : Trie Payload :=
  phrases.foldl (fun trie phrase => trie.insert phrase.1 phrase.2) trie

/-! ### Listing -/

/-- The payloads at and below `node`, each with the path to it, children in the order of the steps
to them. The path to `node` is given, and the boundary at the end of a path is left out. No path
of a trie visits a node twice, so as many levels as there are nodes reach all of them. -/
def phrasesBelow (trie : Trie Payload) : Nat → Nat → Path → List (Path × Payload)
  | 0, _, _ => []
  | levels + 1, node, path =>
    (trie.payloads node).map (path.dropLast, ·) ++
      (trie.children node).flatMap fun (step, next) =>
        phrasesBelow trie levels next (path ++ [step])

/-- Everything stored, in the order of the paths. -/
def phrases (trie : Trie Payload) : List (Path × Payload) :=
  trie.phrasesBelow trie.nodeCount 0 []

/-- Everything stored, with the paths written as dictionaries write phrases. -/
def entries (trie : Trie Payload) : List (String × Payload) :=
  trie.phrases.map fun (path, payload) => (path.render, payload)

/-- Whether all nodes at and below `node` are there. Should the way down lead back to where it came
from, the given number of levels runs out and the answer is no. -/
def isSoundBelow (trie : Trie Payload) : Nat → Nat → Bool
  | 0, _ => false
  | levels + 1, node =>
    decide (node < trie.nodeCount) &&
      (trie.children node).all fun (_, next) => isSoundBelow trie levels next

/-- The number of phrases for which a listing has no room any more. -/
def listingLimit : Nat := Nat.pow 2 58

/-- Whether the phrases can be listed. What insertions build can be, as long as there is room; tries
from elsewhere may also lack nodes or loop, or have payloads at the root, to which no boundary
leads. -/
def isListable (trie : Trie Payload) : Bool :=
  decide (trie.size < listingLimit) && (trie.payloads 0).isEmpty &&
    trie.isSoundBelow trie.nodeCount 0

theorem isListable_empty : (empty : Trie Payload).isListable = true := rfl

/-- The texts of the tokens that start a path, in order. -/
def keys (trie : Trie Payload) : List String :=
  (trie.children 0).filterMap fun (step, _) => step.text?

end Trie

end Codebook
