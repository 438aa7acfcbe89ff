/-
This file defines the actor dictionary. The phrases for one actor form a cluster, and a cluster has
a list of codes, some of them valid only in a period. Main statement: `Cluster.codeOn?` looks at
the periods in file order first and at the codes without a period last.
-/

import Codebook.Phrase
import Codebook.Trie

namespace Codebook

/-- The days on which a code is valid, as ordinals. All bounds belong to the period. -/
inductive Period
  | always
  | until (last : Int)
  | since (first : Int)
  | between (first last : Int)
deriving DecidableEq, Repr

namespace Period

def contains (day : Int) : Period → Bool
  | always => true
  | .until last => day ≤ last
  | since first => first ≤ day
  | between first last => first ≤ day && day ≤ last

def isRestricted : Period → Bool
  | always => false
  | _ => true

end Period

/-- A code and the period in which it is valid. -/
structure DatedCode where
  period : Period
  code : String
deriving DecidableEq, Repr

/-- The codes of an actor. -/
structure Cluster where
  entries : List DatedCode
  /-- The phrase the cluster was opened with, if it is to be kept. -/
  root : Option String
deriving DecidableEq, Repr

/-- The code that applies on a day: of the codes with a bounded period the first whose period
contains the day, or else the first without bounds. -/
def Cluster.codeOn? (cluster : Cluster) (day : Int) : Option String :=
  let restricted := cluster.entries.find? fun entry =>
    entry.period.isRestricted && entry.period.contains day
  let default := cluster.entries.find? fun entry => !entry.period.isRestricted
  (restricted.or default).map (·.code)

/-- The actor dictionary: phrases with the index of their cluster, and the clusters. -/
structure ActorDictionary where
  phrases : Trie Nat
  clusters : Array Cluster
deriving DecidableEq

namespace ActorDictionary

def empty : ActorDictionary :=
  ⟨.empty, #[]⟩

instance : Inhabited ActorDictionary := ⟨empty⟩

/-- The cluster a phrase of running text belongs to. -/
def lookup? (actors : ActorDictionary) (phrase : String) : Option Cluster :=
  (actors.phrases.findWords (Phrase.splitWords phrase.toList)).head?.bind fun cluster =>
    actors.clusters[cluster]?

/-- The code of a phrase on a day. -/
def codeOn? (actors : ActorDictionary) (phrase : String) (day : Int) : Option String :=
  (actors.lookup? phrase).bind (·.codeOn? day)

end ActorDictionary

end Codebook
