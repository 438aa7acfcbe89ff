/-
This file fixes the bytes of a snapshot, in which compiled dictionaries are kept on disk: the
version of the format, and then the dictionaries field by field. Tries are written node by node, so
that the numbering of the nodes survives.
-/

import Codebook.Lexicon
import Codebook.Snapshot.Codec

namespace Codebook

/-- Why a snapshot is not accepted. -/
inductive SnapshotFault
  | unreadable (fault : ReadFault)
  | unknownVersion (version : Nat)
deriving DecidableEq, Repr

namespace Snapshot

/-- The version of the format, raised when the layout changes. -/
def version : Nat := 1

/-! ### Tries -/

def link : Codec Link :=
  .oneOf [.adjacent, .gap]

/-- A token of the given kind: its text and its link. -/
def token (kind : TokenKind) : Codec Step :=
  (Codec.text.pair link).convert (fun (text, link) => .token kind text link)
    fun step => (step.text?.getD "", step.link?.getD .gap)

def step : Codec Step :=
  .tagged Step.rank fun
    | 0 => some (token .word)
    | 1 => some (token .synset)
    | 2 => some (token .slot)
    | 3 => some (Codec.unit.convert (fun _ => .boundary) fun _ => ())
    | _ => none

def node {Payload : Type} (payload : Codec Payload) : Codec (Node Payload) :=
  ((Codec.sortedMap step .count).pair payload.list).convert
    (fun (children, payloads) => ⟨children, payloads⟩) fun node => (node.children, node.payloads)

def trie {Payload : Type} (payload : Codec Payload) : Codec (Trie Payload) :=
  ((node payload).list.pair .count).convert
    (fun (nodes, size) => ⟨nodes.toArray, size⟩) fun trie => (trie.nodes.toList, trie.size)

/-! ### Dictionaries -/

def verbEntry : Codec VerbEntry :=
  (Codec.text.pair (Codec.text.pair .count)).convert
    (fun (anchor, code, line) => ⟨anchor, code, line⟩)
    fun entry => (entry.anchor, entry.code, entry.line)

def verbs : Codec VerbDictionary :=
  ((trie verbEntry).pair ((trie verbEntry).pair ((trie .text).pair (.sortedSet .text)))).convert
    (fun (forms, patterns, synsets, names) => ⟨forms, patterns, synsets, names⟩)
    fun verbs => (verbs.forms, verbs.patterns, verbs.synsets, verbs.synsetNames)

/-- The number of the alternative for a period. -/
def periodTag : Period → Nat
  | .always => 0
  | .until _ => 1
  | .since _ => 2
  | .between _ _ => 3

/-- The bounds of a period; a missing one is taken from the other. -/
def periodBounds : Period → Int × Int
  | .always => (0, 0)
  | .until last => (last, last)
  | .since first => (first, first)
  | .between first last => (first, last)

def datedCode : Codec DatedCode :=
  .tagged (fun entry => periodTag entry.period) fun
    | 0 => some (Codec.text.convert (⟨.always, ·⟩) (·.code))
    | 1 => some ((Codec.int.pair .text).convert (fun (last, code) => ⟨.until last, code⟩)
        fun entry => ((periodBounds entry.period).1, entry.code))
    | 2 => some ((Codec.int.pair .text).convert (fun (first, code) => ⟨.since first, code⟩)
        fun entry => ((periodBounds entry.period).1, entry.code))
    | 3 => some ((Codec.int.pair (Codec.int.pair .text)).convert
        (fun (first, last, code) => ⟨.between first last, code⟩)
        fun entry => ((periodBounds entry.period).1, (periodBounds entry.period).2, entry.code))
    | _ => none

def cluster : Codec Cluster :=
  (datedCode.list.pair Codec.text.option).convert (fun (entries, root) => ⟨entries, root⟩)
    fun cluster => (cluster.entries, cluster.root)

def actors : Codec ActorDictionary :=
  ((trie .count).pair cluster.list).convert
    (fun (phrases, clusters) => ⟨phrases, clusters.toArray⟩)
    fun actors => (actors.phrases, actors.clusters.toList)

def agentCode : Codec AgentCode :=
  (Codec.text.pair (.oneOf [.before, .after])).convert (fun (code, side) => ⟨code, side⟩)
    fun agent => (agent.code, agent.side)

def agents : Codec AgentDictionary :=
  (trie agentCode).convert (⟨·⟩) (·.phrases)

def lexicon : Codec Lexicon :=
  (verbs.pair (actors.pair agents)).convert
    (fun (verbs, actors, agents) => ⟨verbs, actors, agents, #[]⟩)
    fun lexicon => (lexicon.verbs, lexicon.actors, lexicon.agents)

/-! ### Snapshots -/

/-- The dictionaries behind the version of the format. -/
def versioned : Codec (Nat × Lexicon) :=
  (Codec.nat 4).pair lexicon

def write (dictionaries : Lexicon) : List UInt8 :=
  versioned.write (version, dictionaries)

/-- Reads a snapshot. Bytes behind it do not matter; its version does, once all of it has been
read. -/
def read (bytes : List UInt8) : Except SnapshotFault Lexicon :=
  match versioned.read bytes with
  | .error fault => .error (.unreadable fault)
  | .ok ((found, dictionaries), _) =>
    if found = version then .ok dictionaries else .error (.unknownVersion found)

end Snapshot

end Codebook
