/-
This file puts the three dictionaries together.
-/

import Codebook.Actors.Dictionary
import Codebook.Agents.Dictionary
import Codebook.Diagnostic
import Codebook.Verbs.Dictionary

namespace Codebook

structure Lexicon where
  verbs : VerbDictionary
  actors : ActorDictionary
  agents : AgentDictionary
  /-- The lines skipped while compiling. They are not part of a snapshot. -/
  diagnostics : Array Diagnostic
deriving DecidableEq

def Lexicon.empty : Lexicon :=
  ⟨.empty, .empty, .empty, #[]⟩

instance : Inhabited Lexicon := ⟨.empty⟩

end Codebook
