/-
This file lists compiled dictionaries as JSON. Phrases come in the order of their paths, and the
fields of objects in the order of their names.
-/

import Codebook.Lexicon
import Codebook.Report.Json

namespace Codebook.Report

/-- The dictionary that is listed. -/
inductive Section
  | verbs
  | actors
  | agents
deriving DecidableEq, Repr

/-- The section with a name. -/
def Section.ofName? : String → Option Section
  | "verbs" => some verbs
  | "actors" => some actors
  | "agents" => some agents
  | _ => none

/-- What is stored in a trie, phrase by phrase. -/
def phrases {Payload : Type} (payload : Payload → Json) (trie : Trie Payload) : Json :=
  .array (trie.entries.map fun (path, stored) =>
    .object [("path", .text path), ("payload", payload stored)])

def verbEntry (entry : VerbEntry) : Json :=
  .object [("code", .text entry.code), ("line", .number entry.line),
    ("meaning", .text entry.anchor)]

def agentCode (agent : AgentCode) : Json :=
  let attachment := match agent.side with
    | .before => "Prefix"
    | .after => "Suffix"
  .object [("attachment", .text attachment), ("code", .text agent.code)]

/-- A code with its period. -/
def datedCode (entry : DatedCode) : Json :=
  let code := Json.text entry.code
  match entry.period with
  | .always => .object [("Unrestricted", code)]
  | .until last => .object [("Before", .array [.number last, code])]
  | .since first => .object [("After", .array [.number first, code])]
  | .between first last =>
    .object [("Interval",
      .object [("code", code), ("end", .number last), ("start", .number first)])]

def cluster (cluster : Cluster) : Json :=
  .object [("entries", .array (cluster.entries.map datedCode)), ("root", .ofText? cluster.root)]

/-- Whether a dictionary can be listed. Only snapshots of another making hold one that cannot. -/
def isListable (lexicon : Lexicon) : Section → Bool
  | .verbs =>
    lexicon.verbs.forms.isListable && lexicon.verbs.patterns.isListable &&
      lexicon.verbs.synsets.isListable
  | .actors => lexicon.actors.phrases.isListable
  | .agents => lexicon.agents.phrases.isListable

/-- The listing of one dictionary. -/
def dump (lexicon : Lexicon) : Section → Json
  | .verbs =>
    .object [("forms", phrases verbEntry lexicon.verbs.forms),
      ("patterns", phrases verbEntry lexicon.verbs.patterns),
      ("synsets", phrases .text lexicon.verbs.synsets)]
  | .actors =>
    .object [("codes", .array (lexicon.actors.clusters.toList.map cluster)),
      ("phrases", phrases (fun index : Nat => .number index) lexicon.actors.phrases)]
  | .agents => .object [("phrases", phrases agentCode lexicon.agents.phrases)]

end Codebook.Report
