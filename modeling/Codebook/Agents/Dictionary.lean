/-
This file defines the agent dictionary: phrases for roles, such as a president or a police force,
and the code that a role adds to the code of an actor.
-/

import Codebook.Phrase
import Codebook.Trie

namespace Codebook

/-- The side of the actor's code on which an agent's code is written. -/
inductive Side
  /-- Before the actor's code, as in `NGO~`. -/
  | before
  /-- After the actor's code, as in `~GOV`. -/
  | after
deriving DecidableEq, Repr

structure AgentCode where
  code : String
  side : Side
deriving DecidableEq, Repr

/-- A code as dictionaries write it, with `~` in the place of the actor's code. -/
def AgentCode.shown (agent : AgentCode) : String :=
  match agent.side with
  | .before => agent.code ++ "~"
  | .after => "~" ++ agent.code

structure AgentDictionary where
  phrases : Trie AgentCode
deriving DecidableEq

namespace AgentDictionary

def empty : AgentDictionary :=
  ⟨.empty⟩

instance : Inhabited AgentDictionary := ⟨empty⟩

/-- The code of a phrase of running text; of several the first. -/
def lookup? (agents : AgentDictionary) (phrase : String) : Option AgentCode :=
  (agents.phrases.findWords (Phrase.splitWords phrase.toList)).head?

end AgentDictionary

end Codebook
