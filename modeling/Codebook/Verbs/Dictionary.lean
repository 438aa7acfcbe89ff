/-
This file defines the verb dictionary and the lookups in it. Surface forms are stored under the
word that inflects: that word, the words after it, a boundary, the words before it from right to
left. Patterns have the same layout under the primary verb of their block, so that matching goes
outward from the verb.
-/

import Codebook.Phrase
import Codebook.Trie

namespace Codebook

/-- What is stored for a surface form or a pattern. -/
structure VerbEntry where
  /-- The primary verb of the block, under which the block's patterns are stored. -/
  anchor : String
  code : String
  line : Nat
deriving DecidableEq, Repr

structure VerbDictionary where
  forms : Trie VerbEntry
  patterns : Trie VerbEntry
  /-- The members of the synsets, each with the name of its synset. -/
  synsets : Trie String
  synsetNames : SortedSet String
deriving DecidableEq

namespace VerbDictionary

def empty : VerbDictionary :=
  ⟨.empty, .empty, .empty, .empty⟩

instance : Inhabited VerbDictionary := ⟨empty⟩

/-- The path of a surface form that is a single word. -/
def formPath (word : String) : Path :=
  [.root word, .boundary]

/-- What is stored for a single word as a surface form; of several entries the first. -/
def form? (verbs : VerbDictionary) (word : String) : Option VerbEntry :=
  (verbs.forms.find (formPath (Text.upper word))).head?

def hasSynset (verbs : VerbDictionary) (name : String) : Bool :=
  verbs.synsetNames.contains (Text.upper name)

/-- The synsets a phrase of running text is a member of. -/
def synsetsOf (verbs : VerbDictionary) (phrase : String) : List String :=
  verbs.synsets.findWords (Phrase.splitWords phrase.toList)

/-! ### Resolving a verb in its context -/

/-- The node of a pattern reached by a neighbouring word of running text. -/
def patternStep? (verbs : VerbDictionary) (node : Nat) (word : String) : Option Nat :=
  let text := Text.upper word
  (verbs.patterns.child? node (.word text .gap)).or
    (verbs.patterns.child? node (.word text .adjacent))

/-- The nodes reached from `node` by no word, one word, two words and so on, as far as the words
lead. -/
def nodesAlong (verbs : VerbDictionary) (node : Nat) : List String → List Nat
  | [] => [node]
  | word :: rest =>
    node :: match verbs.patternStep? node word with
      | none => []
      | some next => nodesAlong verbs next rest

/-- The pattern that ends furthest along `words` from `node`, or `best` if none does. -/
def longestAlong (verbs : VerbDictionary) (node : Nat) (best : Option VerbEntry) :
    List String → Option VerbEntry
  | [] => best
  | word :: rest =>
    match verbs.patternStep? node word with
    | none => best
    | some next => longestAlong verbs next ((verbs.patterns.terminal next).head?.or best) rest

/-- The pattern with the longest match to the left of the verb, given the node its words to the
right of the verb lead to and the number of those words. The bare anchor, with no word on either
side, is the default of the block and no pattern. -/
def patternAt? (verbs : VerbDictionary) (node depth : Nat) (preceding : List String) :
    Option VerbEntry :=
  (verbs.patterns.child? node .boundary).bind fun upper =>
    verbs.longestAlong upper
      (if depth = 0 then none else (verbs.patterns.terminal upper).head?) preceding.reverse

/-- The pattern that matches the words around a verb: the longest match to the right decides, then
the longest to the left. -/
def matchPattern? (verbs : VerbDictionary) (anchor : Nat) (preceding following : List String) :
    Option VerbEntry :=
  (verbs.nodesAlong anchor following).zipIdx.reverse.findSome? fun (node, depth) =>
    verbs.patternAt? node depth preceding

/-- The code of a verb, given the words right before and right after it. Without a matching
pattern it is the code of the surface form; an unknown verb has none. -/
def resolve (verbs : VerbDictionary) (verb : String) (preceding following : List String) :
    Option String :=
  (verbs.form? verb).map fun form =>
    match (verbs.patterns.root? form.anchor).bind fun anchor =>
        verbs.matchPattern? anchor preceding following with
    | some pattern => pattern.code
    | none => form.code

end VerbDictionary

end Codebook
