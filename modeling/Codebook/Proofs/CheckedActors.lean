/-
This file compiles actor dictionaries with every access checked. Besides the trie these are the
digits that are sliced off a date, and the cluster that is open: it is known by its index, and lines
further down and the end of the file change it there. That it is there was decided by the line that
opened it. Main statements: whatever is compiled into a dictionary in which all that is named by
number is there, no access fails, so that checking changes nothing
(`ActorDictionary.compileChecked_eq`), and in the result all is there again
(`ActorDictionary.IsInRange.compileInto`).
-/

import Codebook.Proofs.ActorLines
import Codebook.Proofs.CheckedReading

namespace Codebook

open Text

/-! ### Dated codes -/

namespace DatedCode

def readBoundChecked (text : List Char) : Except Access (Except Skip Int) := do
  return readDate (← takeChecked (!·.isDigit) (trimStart text))

def readPeriodChecked (dates : List Char) : Except Access (Except Skip Period) := do
  match dates with
  | '<' :: date => return (← readBoundChecked date).map .until
  | '>' :: date => return (← readBoundChecked date).map .since
  | _ => return readPeriod dates

def readChecked (text : List Char) : Except Access (Except Skip DatedCode) := do
  match insideBrackets? text with
  | none => return .error .restrictionWithoutBrackets
  | some inner =>
    let (code, dates) := (splitAt? isSpace (trim inner)).getD (trim inner, [])
    if code.isEmpty then return .error .restrictionWithoutCode
    else return (← readPeriodChecked (trim dates)).map (⟨·, String.ofList code⟩)

theorem readBoundChecked_eq (text : List Char) :
    readBoundChecked text = .ok (readBound text) := by
  rw [readBoundChecked, takeChecked_eq, Access.ok_bind, readBound]
  simp only [Bool.not_not]
  rfl

theorem readPeriodChecked_eq (dates : List Char) :
    readPeriodChecked dates = .ok (readPeriod dates) := by
  unfold readPeriodChecked
  split
  next date =>
    rw [readBoundChecked_eq, Access.ok_bind, readPeriod]
    cases readBound date <;> rfl
  next date =>
    rw [readBoundChecked_eq, Access.ok_bind, readPeriod]
    cases readBound date <;> rfl
  next => rfl

theorem readChecked_eq (text : List Char) : readChecked text = .ok (read text) := by
  unfold readChecked read
  cases insideBrackets? text with
  | none => rfl
  | some inner =>
    dsimp only
    generalize (splitAt? isSpace (trim inner)).getD (trim inner, []) = parts
    obtain ⟨code, dates⟩ := parts
    dsimp only
    rw [readPeriodChecked_eq, Access.ok_bind]
    cases code.isEmpty with
    | true => rfl
    | false => cases readPeriod (trim dates) <;> rfl

end DatedCode

/-! ### Actors -/

/-- All that a dictionary names by number is there: the root and the children of its nodes, and the
clusters of its phrases. -/
structure ActorDictionary.IsInRange (actors : ActorDictionary) : Prop where
  phrases : actors.phrases.IsClosed
  clusters : ∀ {node cluster}, cluster ∈ actors.phrases.payloads node →
    cluster < actors.clusters.size

theorem ActorDictionary.isInRange_empty : empty.IsInRange where
  phrases := Trie.isClosed_empty
  clusters {node cluster} held := by
    cases node with
    | zero => exact absurd held List.not_mem_nil
    | succ node =>
      rw [show empty.phrases.payloads (node + 1) = [] from
        Trie.payloads_eq_nil_of_le (Nat.le_add_left 1 node)] at held
      exact absurd held List.not_mem_nil

namespace ActorDictionary.IsInRange

variable {actors : ActorDictionary}

/-- Clusters may be added behind the others, and changed in their places. -/
theorem withClusters (inRange : actors.IsInRange) {clusters : Array Cluster}
    (size : actors.clusters.size ≤ clusters.size) : IsInRange ⟨actors.phrases, clusters⟩ where
  phrases := inRange.phrases
  clusters held := lt_of_lt_of_le (inRange.clusters held) size

/-- A phrase may be stored for a cluster that is there. -/
theorem insert (inRange : actors.IsInRange) (path : Path) {cluster : Nat}
    (isThere : cluster < actors.clusters.size) :
    IsInRange ⟨actors.phrases.insert path cluster, actors.clusters⟩ where
  phrases := inRange.phrases.insert path cluster
  clusters held := by
    rcases Trie.mem_payloads_insert inRange.phrases held with before | rfl
    · exact inRange.clusters before
    · exact isThere

end ActorDictionary.IsInRange

def ActorItem.readChecked (isOpen : Bool) (line : List Char) :
    Except Access (Except Skip ActorItem) := do
  if line.head? = some '\t' then
    if !isOpen then return .error .restrictionBeforeActor
    else return (← DatedCode.readChecked (trim line)).map .code
  else if (actorText line).head? = some '+' then
    return readSynonym isOpen (actorText line).tail
  else return readPrimary (actorText line)

theorem ActorItem.readChecked_eq (isOpen : Bool) (line : List Char) :
    readChecked isOpen line = .ok (ActorItem.read isOpen line) := by
  rw [readChecked, ActorItem.read, readCode, DatedCode.readChecked_eq, Access.ok_bind]
  split
  next => split <;> rfl
  next => split <;> rfl

namespace ActorState

variable (keepRoots : Bool) {state : ActorState}

/-- `close`, which changes the open cluster where its index says. -/
def closeChecked (state : ActorState) : Except Access ActorState := do
  match state.current with
  | none => return state
  | some cluster =>
    let write := fun complete : Cluster =>
      if keepRoots then { complete with root := some cluster.phrase } else complete
    let clusters ← Access.cluster.change state.dictionary.clusters cluster.index write
    return ⟨{ state.dictionary with clusters }, none⟩

/-- `put`, which stores phrases and changes the open cluster with checks. -/
def putChecked (state : ActorState) : ActorItem → Except Access ActorState
  | .primary phrase code? => do
    let complete := (← state.closeChecked keepRoots).dictionary
    let index := complete.clusters.size
    let phrases ← complete.phrases.insertChecked (Phrase.ofChars phrase).rooted index
    let clusters := complete.clusters.push ⟨(code?.map (DatedCode.mk .always)).toList, none⟩
    return ⟨⟨phrases, clusters⟩, some ⟨index, String.ofList phrase⟩⟩
  | .synonym phrase => do
    match state.current with
    | none => return state
    | some cluster =>
      let path := (Phrase.ofChars phrase).rooted
      let phrases ← state.dictionary.phrases.insertChecked path cluster.index
      return { state with dictionary := { state.dictionary with phrases } }
  | .code entry => do
    match state.current with
    | none => return state
    | some cluster =>
      let add := fun open_ : Cluster => { open_ with entries := open_.entries ++ [entry] }
      let clusters ← Access.cluster.change state.dictionary.clusters cluster.index add
      return { state with dictionary := { state.dictionary with clusters } }

def handleChecked (state : ActorState) (line : Line) :
    Except Access (ActorState × Option Skip) := do
  match ← ActorItem.readChecked state.current.isSome line.text with
  | .error skip => return (state, some skip)
  | .ok item => return (← state.putChecked keepRoots item, none)

/-- All that is named by number is there, the open cluster included. -/
structure IsInRange (state : ActorState) : Prop where
  dictionary : state.dictionary.IsInRange
  current : ∀ cluster ∈ state.current, cluster.index < state.dictionary.clusters.size

theorem closeChecked_eq (inRange : state.IsInRange) :
    state.closeChecked keepRoots = .ok (state.close keepRoots) := by
  rw [closeChecked, close]
  cases isCurrent : state.current with
  | none => rfl
  | some cluster =>
    dsimp only
    rw [Access.change_eq_ok (inRange.current cluster isCurrent)]
    rfl

/-- An open cluster that were not there would end the program. -/
theorem closeChecked_eq_error {cluster : OpenCluster} (isCurrent : state.current = some cluster)
    (absent : state.dictionary.clusters.size ≤ cluster.index) :
    state.closeChecked keepRoots = .error .cluster := by
  rw [closeChecked, isCurrent]
  dsimp only
  rw [Access.change, if_neg (Nat.not_lt.mpr absent)]
  rfl

theorem IsInRange.close (inRange : state.IsInRange) : (state.close keepRoots).IsInRange := by
  rw [ActorState.close]
  cases isCurrent : state.current with
  | none => exact inRange
  | some cluster =>
    refine ⟨inRange.dictionary.withClusters (Array.size_modify.ge), fun other isOpen => ?_⟩
    exact absurd isOpen (Option.not_mem_none other)

theorem putChecked_eq (inRange : state.IsInRange) (item : ActorItem) :
    state.putChecked keepRoots item = .ok (state.put keepRoots item) := by
  have closed := inRange.dictionary.phrases
  obtain ⟨dictionary, current⟩ := state
  cases item with
  | primary phrase code? =>
    rw [putChecked, closeChecked_eq keepRoots inRange, Access.ok_bind]
    dsimp only
    rw [Trie.insertChecked_eq (inRange.close keepRoots).dictionary.phrases]
    rfl
  | synonym phrase =>
    cases current with
    | none => rfl
    | some cluster =>
      dsimp only [putChecked]
      rw [Trie.insertChecked_eq closed]
      rfl
  | code entry =>
    cases current with
    | none => rfl
    | some cluster =>
      dsimp only [putChecked]
      rw [Access.change_eq_ok (inRange.current cluster rfl)]
      rfl

/-- Phrases are only ever stored for a cluster that is there. -/
theorem IsInRange.put (inRange : state.IsInRange) (item : ActorItem) :
    (state.put keepRoots item).IsInRange := by
  cases item with
  | primary phrase code? =>
    have complete := (inRange.close keepRoots).dictionary
    have size : (state.put keepRoots (.primary phrase code?)).dictionary.clusters.size =
        (state.close keepRoots).dictionary.clusters.size + 1 := Array.size_push _
    have isLast := lt_of_lt_of_eq (Nat.lt_succ_self _) size.symm
    refine ⟨(complete.withClusters isLast.le).insert _ isLast, fun cluster isCurrent => ?_⟩
    obtain rfl := Option.some.inj isCurrent
    exact isLast
  | synonym phrase =>
    rw [ActorState.put]
    cases isCurrent : state.current with
    | none => exact inRange
    | some cluster =>
      exact ⟨inRange.dictionary.insert _ (inRange.current cluster isCurrent), inRange.current⟩
  | code entry =>
    rw [ActorState.put]
    cases isCurrent : state.current with
    | none => exact inRange
    | some cluster =>
      have size : (state.addEntry entry cluster.index).dictionary.clusters.size =
          state.dictionary.clusters.size := Array.size_modify
      refine ⟨inRange.dictionary.withClusters size.ge, fun other isOther => ?_⟩
      exact lt_of_lt_of_eq (inRange.current other isOther) size.symm

theorem unfailing : Unfailing IsInRange (handleChecked keepRoots) (handle keepRoots) where
  agrees {state} inRange line := by
    rw [handleChecked, ActorItem.readChecked_eq, Access.ok_bind, handle_eq]
    cases ActorItem.read state.current.isSome line.text with
    | error skip => rfl
    | ok item =>
      dsimp only
      rw [putChecked_eq keepRoots inRange]
      rfl
  remains {state} inRange line := by
    rw [handle_eq]
    cases ActorItem.read state.current.isSome line.text with
    | error skip => exact inRange
    | ok item => exact inRange.put keepRoots item

end ActorState

/-! ### Files -/

namespace ActorDictionary

/-- Compiles an actor dictionary into what has been compiled before, in a context in which
diagnostics have been reported before. -/
def compileChecked (keepRoots : Bool) (earlier : ActorDictionary) (reported : Array Diagnostic)
    (file : String) (lines : List PhysicalLine) :
    Except Access (Compilation ActorDictionary) := do
  let start := (ActorState.mk earlier none, reported)
  let handle := ActorState.handleChecked keepRoots
  let done ← readChecked handle Script.isStop file .outside 0 start lines
  let state ← if done.failedAfter.isNone then done.dictionary.closeChecked keepRoots
    else pure done.dictionary
  return { done with dictionary := state.dictionary }

theorem IsInRange.start {earlier : ActorDictionary} (inRange : earlier.IsInRange) :
    (ActorState.mk earlier none).IsInRange :=
  ⟨inRange, fun cluster isOpen => absurd isOpen (Option.not_mem_none cluster)⟩

/-- What handling lines comes to from a dictionary without an open cluster is in range. -/
theorem IsInRange.handleLines (keepRoots : Bool) {earlier : ActorDictionary}
    (inRange : earlier.IsInRange) (file : String) (lines : List Line) :
    (handleLines (ActorState.handle keepRoots) file ⟨earlier, none⟩ lines).1.IsInRange := by
  exact (ActorState.unfailing keepRoots).handled_remains file inRange.start ⟨lines, none⟩

theorem compileChecked_eq (keepRoots : Bool) {earlier : ActorDictionary}
    (inRange : earlier.IsInRange) (reported : Array Diagnostic) (file : String)
    (lines : List PhysicalLine) :
    compileChecked keepRoots earlier reported file lines =
      .ok ((earlier.compileInto keepRoots file (Script.ofLines lines)).after reported) := by
  have untilStop : (Script.ofLines lines).cutAt Script.isStop = (Script.ofLines lines).untilStop :=
    rfl
  rw [compileChecked]
  dsimp only
  rw [(ActorState.unfailing keepRoots).readChecked_eq _ file .outside 0 inRange.start lines,
    Access.ok_bind, ← Script.ofLines_eq, untilStop, Script.handled_eq, compileInto]
  dsimp only
  split
  next =>
    rw [ActorState.closeChecked_eq keepRoots (inRange.handleLines keepRoots file _)]
    rfl
  next => rfl

/-- The clusters of a file come behind the earlier ones, and its phrases name them or, as synonyms
do, the one that is open. -/
theorem IsInRange.compileInto (keepRoots : Bool) {earlier : ActorDictionary}
    (inRange : earlier.IsInRange) (file : String) (script : Script) :
    (earlier.compileInto keepRoots file script).dictionary.IsInRange := by
  have handled := inRange.handleLines keepRoots file script.untilStop.lines
  rw [ActorDictionary.compileInto]
  dsimp only
  split
  next => exact (handled.close keepRoots).dictionary
  next => exact handled.dictionary

end ActorDictionary

end Codebook
