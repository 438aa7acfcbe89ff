/-
This file proves that snapshots keep dictionaries as they are. The numbers of a dictionary have no
bound of their own, but those of a snapshot have a fixed width, so it is said first what fits into
the format: lengths, indices and line numbers of 64 bits, and days of 64 bits in two's complement.
Every dictionary that fits is read back from its snapshot, node numbers included, whatever bytes
follow (`Snapshot.read_write_append`).
-/

import Codebook.Proofs.CodecRestores
import Codebook.Snapshot.Format
import Mathlib.Tactic.MkIffOfInductiveProp

namespace Codebook

/-! ### What fits into the format -/

/-- A length, an index or a line number has 64 bits. -/
abbrev CountFits (value : Nat) : Prop :=
  value < UInt64.size

/-- The length of a text in bytes has 64 bits. -/
abbrev TextFits (text : String) : Prop :=
  CountFits text.utf8ByteSize

/-- A day has 64 bits, one of them for the sign. -/
abbrev DayFits (day : Int) : Prop :=
  Int64.minValue.toInt ≤ day ∧ day ≤ Int64.maxValue.toInt

/-- The length of a list has 64 bits, and its members fit. -/
@[mk_iff] structure ListFits {Value : Type} (fits : Value → Prop) (values : List Value) :
    Prop where
  length : CountFits values.length
  members : ∀ value ∈ values, fits value

instance {Value : Type} (fits : Value → Prop) [DecidablePred fits] :
    DecidablePred (ListFits fits) := fun values => decidable_of_iff' _ (listFits_iff fits values)

def Step.Fits : Step → Prop
  | token _ text _ => TextFits text
  | boundary => True

instance : DecidablePred Step.Fits
  | .token _ text _ => inferInstanceAs (Decidable (TextFits text))
  | .boundary => .isTrue trivial

section

variable {Payload : Type} (payloadFits : Payload → Prop)

@[mk_iff] structure Node.Fits (node : Node Payload) : Prop where
  children : ListFits (fun entry => entry.1.Fits ∧ CountFits entry.2) node.children.entries
  payloads : ListFits payloadFits node.payloads

@[mk_iff] structure Trie.Fits (trie : Trie Payload) : Prop where
  nodes : ListFits (Node.Fits payloadFits) trie.nodes.toList
  size : CountFits trie.size

variable [DecidablePred payloadFits]

instance : DecidablePred (Node.Fits payloadFits) := fun node =>
  decidable_of_iff' _ (Node.fits_iff payloadFits node)

instance : DecidablePred (Trie.Fits payloadFits) := fun trie =>
  decidable_of_iff' _ (Trie.fits_iff payloadFits trie)

end

@[mk_iff] structure VerbEntry.Fits (entry : VerbEntry) : Prop where
  anchor : TextFits entry.anchor
  code : TextFits entry.code
  line : CountFits entry.line

instance : DecidablePred VerbEntry.Fits := fun entry =>
  decidable_of_iff' _ (VerbEntry.fits_iff entry)

@[mk_iff] structure VerbDictionary.Fits (verbs : VerbDictionary) : Prop where
  forms : verbs.forms.Fits VerbEntry.Fits
  patterns : verbs.patterns.Fits VerbEntry.Fits
  synsets : verbs.synsets.Fits TextFits
  synsetNames : ListFits TextFits verbs.synsetNames.keys

instance : DecidablePred VerbDictionary.Fits := fun verbs =>
  decidable_of_iff' _ (VerbDictionary.fits_iff verbs)

def Period.Fits : Period → Prop
  | always => True
  | .until last => DayFits last
  | since first => DayFits first
  | between first last => DayFits first ∧ DayFits last

instance : DecidablePred Period.Fits
  | .always => .isTrue trivial
  | .until last => inferInstanceAs (Decidable (DayFits last))
  | .since first => inferInstanceAs (Decidable (DayFits first))
  | .between first last => inferInstanceAs (Decidable (DayFits first ∧ DayFits last))

@[mk_iff] structure Cluster.Fits (cluster : Cluster) : Prop where
  entries : ListFits (fun entry => entry.period.Fits ∧ TextFits entry.code) cluster.entries
  root : ∀ root ∈ cluster.root, TextFits root

instance : DecidablePred Cluster.Fits := fun cluster =>
  decidable_of_iff' _ (Cluster.fits_iff cluster)

@[mk_iff] structure ActorDictionary.Fits (actors : ActorDictionary) : Prop where
  phrases : actors.phrases.Fits CountFits
  clusters : ListFits Cluster.Fits actors.clusters.toList

instance : DecidablePred ActorDictionary.Fits := fun actors =>
  decidable_of_iff' _ (ActorDictionary.fits_iff actors)

abbrev AgentDictionary.Fits (agents : AgentDictionary) : Prop :=
  agents.phrases.Fits fun agent => TextFits agent.code

@[mk_iff] structure Lexicon.Fits (lexicon : Lexicon) : Prop where
  verbs : lexicon.verbs.Fits
  actors : lexicon.actors.Fits
  agents : lexicon.agents.Fits

instance : DecidablePred Lexicon.Fits := fun lexicon =>
  decidable_of_iff' _ (Lexicon.fits_iff lexicon)

namespace Snapshot

open Codec

theorem restores_list_of_fits {Value : Type} {codec : Codec Value} {fits : Value → Prop}
    (restored : ∀ {value}, fits value → codec.Restores value) {values : List Value}
    (allFit : ListFits fits values) : codec.list.Restores values :=
  restores_list allFit.length fun value member => restored (allFit.members value member)

/-! ### Tries -/

theorem restores_link (value : Link) : link.Restores value :=
  restores_oneOf (by decide) (by cases value <;> decide)

theorem restores_token {kind : TokenKind} {text : String} (value : Link) (fits : TextFits text) :
    (token kind).Restores (.token kind text value) :=
  restores_convert (restores_pair (restores_text fits) (restores_link value)) rfl

theorem rank_lt (value : Step) : value.rank < UInt32.size := by
  rcases value with ⟨_ | _ | _, _, _⟩ | _ <;> simp [Step.rank, UInt32.size]

theorem restores_step {value : Step} (fits : value.Fits) : step.Restores value := by
  have tagFits := rank_lt value
  cases value with
  | boundary => exact restores_tagged tagFits rfl (restores_convert restores_unit rfl)
  | token kind text link =>
    cases kind with
    | word => exact restores_tagged tagFits rfl (restores_token link fits)
    | synset => exact restores_tagged tagFits rfl (restores_token link fits)
    | slot => exact restores_tagged tagFits rfl (restores_token link fits)

section

variable {Payload : Type} {payload : Codec Payload} {payloadFits : Payload → Prop}
  (restored : ∀ {value}, payloadFits value → payload.Restores value)

include restored

theorem restores_node {value : Node Payload} (fits : value.Fits payloadFits) :
    (node payload).Restores value := by
  refine restores_convert (restores_pair ?children ?payloads) rfl
  case children =>
    refine restores_sortedMap fits.children.length fun entry member => ?_
    obtain ⟨stepFits, childFits⟩ := fits.children.members entry member
    exact ⟨restores_step stepFits, restores_count childFits⟩
  case payloads => exact restores_list_of_fits restored fits.payloads

theorem restores_trie {value : Trie Payload} (fits : value.Fits payloadFits) :
    (trie payload).Restores value :=
  restores_convert
    (restores_pair (restores_list_of_fits (restores_node restored) fits.nodes)
      (restores_count fits.size))
    rfl

end

/-! ### Dictionaries -/

theorem restores_verbEntry {value : VerbEntry} (fits : value.Fits) : verbEntry.Restores value :=
  restores_convert
    (restores_pair (restores_text fits.anchor)
      (restores_pair (restores_text fits.code) (restores_count fits.line)))
    rfl

theorem restores_verbs {value : VerbDictionary} (fits : value.Fits) : verbs.Restores value := by
  have names : (Codec.sortedSet .text).Restores value.synsetNames := by
    have size : value.synsetNames.keys.length = value.synsetNames.size := List.length_map _
    exact restores_sortedSet (size ▸ fits.synsetNames.length) fun name member =>
      restores_text (fits.synsetNames.members name member)
  exact restores_convert
    (restores_pair (restores_trie restores_verbEntry fits.forms)
      (restores_pair (restores_trie restores_verbEntry fits.patterns)
        (restores_pair (restores_trie restores_text fits.synsets) names)))
    rfl

theorem restores_day {day : Int} (fits : DayFits day) : Codec.int.Restores day :=
  restores_int fits.1 fits.2

theorem periodTag_lt (period : Period) : periodTag period < UInt32.size := by
  cases period <;> simp [periodTag, UInt32.size]

theorem restores_datedCode {value : DatedCode}
    (fits : value.period.Fits ∧ TextFits value.code) : datedCode.Restores value := by
  obtain ⟨period, code⟩ := value
  obtain ⟨periodFits, codeFits⟩ := fits
  have restoredCode := restores_text codeFits
  have tagFits := periodTag_lt period
  cases period with
  | always => exact restores_tagged tagFits rfl (restores_convert restoredCode rfl)
  | «until» last =>
    exact restores_tagged tagFits rfl
      (restores_convert (restores_pair (restores_day periodFits) restoredCode) rfl)
  | since first =>
    exact restores_tagged tagFits rfl
      (restores_convert (restores_pair (restores_day periodFits) restoredCode) rfl)
  | between first last =>
    exact restores_tagged tagFits rfl
      (restores_convert
        (restores_pair (restores_day periodFits.1)
          (restores_pair (restores_day periodFits.2) restoredCode))
        rfl)

theorem restores_cluster {value : Cluster} (fits : value.Fits) : cluster.Restores value :=
  restores_convert
    (restores_pair (restores_list_of_fits restores_datedCode fits.entries)
      (restores_option fun root isRoot => restores_text (fits.root root isRoot)))
    rfl

theorem restores_actors {value : ActorDictionary} (fits : value.Fits) : actors.Restores value :=
  restores_convert
    (restores_pair (restores_trie restores_count fits.phrases)
      (restores_list_of_fits restores_cluster fits.clusters))
    rfl

theorem restores_agentCode {value : AgentCode} (fits : TextFits value.code) :
    agentCode.Restores value := by
  have side : (Codec.oneOf [Side.before, .after]).Restores value.side :=
    restores_oneOf (by decide) (by cases value.side <;> decide)
  exact restores_convert (restores_pair (restores_text fits) side) rfl

theorem restores_agents {value : AgentDictionary} (fits : value.Fits) : agents.Restores value :=
  restores_convert (restores_trie restores_agentCode fits) rfl

theorem restores_lexicon {value : Lexicon} (fits : value.Fits) :
    lexicon.Restores { value with diagnostics := #[] } :=
  restores_convert
    (restores_pair (restores_verbs fits.verbs)
      (restores_pair (restores_actors fits.actors) (restores_agents fits.agents)))
    rfl

/-! ### Snapshots -/

theorem write_eq (dictionaries : Lexicon) :
    write dictionaries = versioned.write (version, { dictionaries with diagnostics := #[] }) := rfl

/-- A snapshot of dictionaries that fit is read back to the same dictionaries without diagnostics,
whatever bytes stand behind it. -/
theorem read_write_append (dictionaries : Lexicon) (fits : dictionaries.Fits)
    (behind : List UInt8) :
    read (write dictionaries ++ behind) = .ok { dictionaries with diagnostics := #[] } := by
  have restored : versioned.Restores (version, { dictionaries with diagnostics := #[] }) :=
    restores_pair (restores_nat (show version < Nat.pow 256 4 by decide)) (restores_lexicon fits)
  rw [read, write_eq, restored behind]
  rfl

/-- A verb with its code and form, a synset, and an actor whose period has the widest bounds. -/
def grantLexicon : Lexicon where
  verbs :=
    { forms := ⟨#[⟨⟨[(.root "GRANT", 1)], List.pairwise_singleton _ _⟩, []⟩,
        ⟨⟨[(.boundary, 2)], List.pairwise_singleton _ _⟩, []⟩,
        ⟨⟨[(.boundary, 3)], List.pairwise_singleton _ _⟩, []⟩,
        ⟨.empty, [⟨"GRANT", "070", 5⟩]⟩], 1⟩
      patterns := .empty
      synsets := .empty
      synsetNames := ⟨[("&CURRENCY", ())], List.pairwise_singleton _ _⟩ }
  actors :=
    { phrases := .empty
      clusters := #[⟨[⟨.between Int64.minValue.toInt Int64.maxValue.toInt, "AFGGOV"⟩], some "KARZAI"⟩] }
  agents := .empty
  diagnostics := #[⟨"verbs", 7, .patternBeforeVerb⟩]

theorem read_write_grantLexicon :
    grantLexicon.Fits ∧ read (write grantLexicon ++ [0, 255]) =
      .ok { grantLexicon with diagnostics := #[] } :=
  ⟨by decide, read_write_append grantLexicon (by decide) [0, 255]⟩

end Snapshot

end Codebook
