/-
This file says what several actor files come to when they are compiled into one dictionary. A file
that is compiled into a dictionary with clusters in it does what it does alone, only that its
clusters get their indices behind the ones that are there. Main statement: the clusters of all
files stand one behind the other, and what is stored for a phrase is what each file stores for it,
moved accordingly (`FileAccess.actor_files_compose`).
-/

import Codebook.Proofs.ActorLines
import Codebook.Proofs.LinesInOrder
import Codebook.Proofs.TrieStorage
import Codebook.Workspace

namespace Codebook

/-! ### Behind another dictionary -/

namespace ActorDictionary

/-- An index behind the values in front names one of the others. -/
theorem modify_append {Value : Type} (front back : Array Value) (index : Nat)
    (change : Value → Value) :
    (front ++ back).modify (front.size + index) change = front ++ back.modify index change := by
  ext position
  · simp
  · simp only [Array.getElem_modify, Array.getElem_append]
    grind

/-- A dictionary holds an earlier one, and behind it what another one holds alone. -/
structure IsBehind (earlier alone whole : ActorDictionary) : Prop where
  clusters : whole.clusters = earlier.clusters ++ alone.clusters
  aloneShape : alone.phrases.WellFormed
  wholeShape : whole.phrases.WellFormed
  find (path : Path) : whole.phrases.find path =
    earlier.phrases.find path ++ (alone.phrases.find path).map (earlier.clusters.size + ·)

namespace IsBehind

variable {earlier alone whole : ActorDictionary}

/-- Nothing has been added yet. -/
theorem start (earlierShape : earlier.phrases.WellFormed) : earlier.IsBehind .empty earlier where
  clusters := by simp [ActorDictionary.empty]
  aloneShape := Trie.wellFormed_empty
  wholeShape := earlierShape
  find path := by simp [ActorDictionary.empty, Trie.find_empty]

/-- The next cluster gets an index behind the earlier ones. -/
theorem size (behind : earlier.IsBehind alone whole) :
    whole.clusters.size = earlier.clusters.size + alone.clusters.size := by
  rw [behind.clusters, Array.size_append]

theorem insert (behind : earlier.IsBehind alone whole) (path : Path) (cluster : Nat) :
    earlier.IsBehind { alone with phrases := alone.phrases.insert path cluster }
      { whole with
        phrases := whole.phrases.insert path (earlier.clusters.size + cluster) } where
  clusters := behind.clusters
  aloneShape := behind.aloneShape.insert path cluster
  wholeShape := behind.wholeShape.insert path _
  find other := by
    rw [behind.wholeShape.find_insert, behind.aloneShape.find_insert, behind.find, List.map_append,
      List.append_assoc]
    split <;> rfl

theorem push (behind : earlier.IsBehind alone whole) (cluster : Cluster) :
    earlier.IsBehind { alone with clusters := alone.clusters.push cluster }
      { whole with clusters := whole.clusters.push cluster } where
  clusters := by rw [behind.clusters, Array.append_push]
  aloneShape := behind.aloneShape
  wholeShape := behind.wholeShape
  find := behind.find

theorem modify (behind : earlier.IsBehind alone whole) (cluster : Nat)
    (change : Cluster → Cluster) :
    earlier.IsBehind { alone with clusters := alone.clusters.modify cluster change }
      { whole with
        clusters := whole.clusters.modify (earlier.clusters.size + cluster) change } where
  clusters := by rw [behind.clusters, modify_append]
  aloneShape := behind.aloneShape
  wholeShape := behind.wholeShape
  find := behind.find

end IsBehind

end ActorDictionary

/-! ### Lines -/

namespace ActorState

variable (keepRoots : Bool) {earlier : ActorDictionary} {alone whole : ActorState}

/-- The open cluster is the same, but for its index. -/
structure IsBehind (earlier : ActorDictionary) (alone whole : ActorState) : Prop where
  dictionary : earlier.IsBehind alone.dictionary whole.dictionary
  current : whole.current =
    alone.current.map fun cluster => ⟨earlier.clusters.size + cluster.index, cluster.phrase⟩

namespace IsBehind

theorem isSome_current (behind : IsBehind earlier alone whole) :
    whole.current.isSome = alone.current.isSome := by
  rw [behind.current, Option.isSome_map]

theorem close (behind : IsBehind earlier alone whole) :
    IsBehind earlier (alone.close keepRoots) (whole.close keepRoots) := by
  have current := behind.current
  unfold ActorState.close
  cases isCurrent : alone.current with
  | none =>
    rw [isCurrent, Option.map_none] at current
    rw [current]
    exact behind
  | some cluster =>
    rw [isCurrent, Option.map_some] at current
    rw [current]
    exact ⟨behind.dictionary.modify cluster.index _, rfl⟩

theorem addPhrase (behind : IsBehind earlier alone whole) (path : Path) (cluster : Nat) :
    IsBehind earlier (alone.addPhrase path cluster)
      (whole.addPhrase path (earlier.clusters.size + cluster)) :=
  ⟨behind.dictionary.insert path cluster, behind.current⟩

theorem addEntry (behind : IsBehind earlier alone whole) (entry : DatedCode) (cluster : Nat) :
    IsBehind earlier (alone.addEntry entry cluster)
      (whole.addEntry entry (earlier.clusters.size + cluster)) :=
  ⟨behind.dictionary.modify cluster _, behind.current⟩

/-- What goes to the open cluster goes to the same one in both. -/
theorem toCurrent (behind : IsBehind earlier alone whole) (add : Nat → ActorState → ActorState)
    (addBehind : ∀ cluster,
      IsBehind earlier (add cluster alone) (add (earlier.clusters.size + cluster) whole)) :
    IsBehind earlier (alone.current.elim alone fun cluster => add cluster.index alone)
      (whole.current.elim whole fun cluster => add cluster.index whole) := by
  rw [behind.current]
  cases alone.current with
  | none => exact behind
  | some cluster => exact addBehind cluster.index

theorem put (behind : IsBehind earlier alone whole) (item : ActorItem) :
    IsBehind earlier (alone.put keepRoots item) (whole.put keepRoots item) := by
  cases item with
  | primary phrase code? =>
    -- Both clusters are new, and the tables they go to differ by the earlier clusters.
    have complete := (behind.close keepRoots).dictionary
    have opened := (complete.push ⟨(code?.map (DatedCode.mk .always)).toList, none⟩).insert
      (Phrase.ofChars phrase).rooted (alone.close keepRoots).dictionary.clusters.size
    rw [← complete.size] at opened
    exact ⟨opened, by rw [ActorState.put, complete.size]; rfl⟩
  | synonym phrase =>
    exact behind.toCurrent (ActorState.addPhrase _) (behind.addPhrase _)
  | code entry => exact behind.toCurrent (ActorState.addEntry entry) (behind.addEntry entry)

/-- A line has the same fate in both. -/
theorem handle (behind : IsBehind earlier alone whole) (line : Line) :
    IsBehind earlier (alone.handle keepRoots line).1 (whole.handle keepRoots line).1 ∧
      (whole.handle keepRoots line).2 = (alone.handle keepRoots line).2 := by
  rw [handle_eq, handle_eq, behind.isSome_current]
  cases ActorItem.read alone.current.isSome line.text with
  | ok item => exact ⟨behind.put keepRoots item, rfl⟩
  | error skip => exact ⟨behind, rfl⟩

theorem handleLines (behind : IsBehind earlier alone whole) (file : String) (lines : List Line) :
    IsBehind earlier (Codebook.handleLines (ActorState.handle keepRoots) file alone lines).1
        (Codebook.handleLines (ActorState.handle keepRoots) file whole lines).1 ∧
      (Codebook.handleLines (ActorState.handle keepRoots) file whole lines).2 =
        (Codebook.handleLines (ActorState.handle keepRoots) file alone lines).2 := by
  induction lines generalizing alone whole with
  | nil => exact ⟨behind, rfl⟩
  | cons line rest inductionHypothesis =>
    obtain ⟨after, sameFate⟩ := behind.handle keepRoots line
    obtain ⟨atEnd, sameDiagnostics⟩ := inductionHypothesis after
    rw [handleLines_cons, handleLines_cons, sameFate, sameDiagnostics]
    exact ⟨atEnd, rfl⟩

end IsBehind

end ActorState

/-! ### Files -/

/-- A file compiled into a dictionary does what it does alone, behind what is there. -/
theorem ActorDictionary.isBehind_compileInto (keepRoots : Bool) {earlier : ActorDictionary}
    (earlierShape : earlier.phrases.WellFormed) (file : String) (script : Script) :
    earlier.IsBehind (ActorDictionary.empty.compileInto keepRoots file script).dictionary
        (earlier.compileInto keepRoots file script).dictionary ∧
      (earlier.compileInto keepRoots file script).diagnostics =
        (ActorDictionary.empty.compileInto keepRoots file script).diagnostics := by
  have atStart : ActorState.IsBehind earlier ⟨.empty, none⟩ ⟨earlier, none⟩ :=
    ⟨.start earlierShape, rfl⟩
  obtain ⟨atEnd, sameDiagnostics⟩ :=
    atStart.handleLines keepRoots file script.untilStop.lines
  refine ⟨?_, sameDiagnostics⟩
  unfold compileInto
  dsimp only
  split
  next => exact (atEnd.close keepRoots).dictionary
  next => exact atEnd.dictionary

/-- An actor file by name and contents. -/
structure ActorFile where
  name : String
  bytes : ByteArray

namespace ActorFile

def script (file : ActorFile) : Script :=
  .ofLines (PhysicalLine.linesOfBytes file.bytes)

/-- What the file comes to alone. -/
def alone (keepRoots : Bool) (file : ActorFile) : Compilation ActorDictionary :=
  ActorDictionary.empty.compileInto keepRoots file.name file.script

variable {World : Type} {files : FileAccess (StateM World)} {world : World}

/-- The file can be read where it lies: it is there, and the lines of it that count are texts. -/
structure IsReadable (files : FileAccess (StateM World)) (world : World) (file : ActorFile) :
    Prop where
  fetched : (files.fetch file.name).run world = (.ok (.file file.bytes), world)
  decodable : file.script.untilStop.failedAfter = none

theorem IsReadable.run_compileFile {file : ActorFile} (readable : file.IsReadable files world)
    {Dictionary : Type} (kind : DictionaryKind)
    (compile : String → Script → Compilation Dictionary) :
    (files.compileFile kind file.name compile).run world =
      (.ofCompilation file.name (compile file.name file.script), world) := by
  rw [FileAccess.compileFile, StateT.run_bind, readable.fetched]
  rfl

end ActorFile

/-! ### Several files -/

/-- What dictionaries store for a path, the clusters of each moved behind those before it. -/
def findBehind (path : Path) : Nat → List ActorDictionary → List Nat
  | _, [] => []
  | offset, first :: rest =>
    (first.phrases.find path).map (offset + ·) ++
      findBehind path (offset + first.clusters.size) rest

theorem findBehind_append (path : Path) (offset : Nat) (front back : List ActorDictionary) :
    findBehind path offset (front ++ back) =
      findBehind path offset front ++
        findBehind path (offset + (front.flatMap (·.clusters.toList)).length) back := by
  induction front generalizing offset with
  | nil => rfl
  | cons first rest inductionHypothesis =>
    rw [List.cons_append, findBehind, findBehind, inductionHypothesis, List.append_assoc,
      List.flatMap_cons, List.length_append, first.clusters.length_toList, Nat.add_assoc]

theorem le_of_mem_findBehind {path : Path} {dictionaries : List ActorDictionary}
    {offset cluster : Nat} (member : cluster ∈ findBehind path offset dictionaries) :
    offset ≤ cluster := by
  induction dictionaries generalizing offset with
  | nil => cases member
  | cons first rest inductionHypothesis =>
    rw [findBehind, List.mem_append] at member
    rcases member with inFirst | inRest
    · obtain ⟨own, -, rfl⟩ := List.mem_map.mp inFirst
      exact Nat.le_add_right offset own
    · exact Nat.le_of_add_right_le (inductionHypothesis inRest)

/-- A dictionary is kept as it is by one that adds to it: its clusters are the first ones there, and
no phrase that is added belongs to any of them. -/
structure ActorDictionary.IsKeptBy (first whole : ActorDictionary) : Prop where
  clusters : first.clusters.toList <+: whole.clusters.toList
  phrases (path : Path) : ∃ added, whole.phrases.find path = first.phrases.find path ++ added ∧
    ∀ cluster ∈ added, first.clusters.size ≤ cluster

namespace FileAccess

variable {World : Type} {files : FileAccess (StateM World)} {world : World} (keepRoots : Bool)

/-- A file that can be read is compiled, and then come the others. -/
theorem run_compileActorsFrom_cons {source : ActorFile} (readable : source.IsReadable files world)
    (earlier : ActorDictionary) (diagnostics : Array Diagnostic) (names : List String) :
    (files.compileActorsFrom keepRoots earlier diagnostics (source.name :: names)).run world =
      (files.compileActorsFrom keepRoots
        (earlier.compileInto keepRoots source.name source.script).dictionary
        (diagnostics ++ (earlier.compileInto keepRoots source.name source.script).diagnostics)
        names).run world := by
  have decoded : (earlier.compileInto keepRoots source.name source.script).failedAfter = none :=
    readable.decodable
  rw [compileActorsFrom, StateT.run_bind, readable.run_compileFile]
  simp only [Outcome.ofCompilation, decoded]
  rfl

/-- A file that comes to a dictionary has been compiled from some script. -/
theorem exists_script_of_run_compileFile {Dictionary : Type} {kind : DictionaryKind} {name : String}
    {compile : String → Script → Compilation Dictionary} {dictionary : Dictionary}
    (isResult : ((files.compileFile kind name compile).run world).1.result = .ok dictionary) :
    ∃ script, (compile name script).dictionary = dictionary := by
  rw [compileFile, StateT.run_bind] at isResult
  generalize (files.fetch name).run world = fetched at isResult
  obtain ⟨error | bytes | _, after⟩ := fetched
  · cases isResult
  · let script := Script.ofLines (PhysicalLine.linesOfBytes bytes)
    have compiled : (Outcome.ofCompilation name (compile name script)).result = .ok dictionary :=
      isResult
    refine ⟨script, ?_⟩
    unfold Outcome.ofCompilation at compiled
    cases failed : (compile name script).failedAfter with
    | none => simpa [failed] using compiled
    | some line => simp [failed] at compiled
  · cases isResult

/-- What every file keeps is kept by all of them. -/
theorem holds_of_run_compileActorsFrom {Holds : ActorDictionary → Prop}
    (keeps : ∀ earlier file script, Holds earlier →
      Holds (earlier.compileInto keepRoots file script).dictionary)
    {earlier whole : ActorDictionary} (atStart : Holds earlier) {diagnostics : Array Diagnostic}
    {names : List String}
    (isResult : ((files.compileActorsFrom keepRoots earlier diagnostics names).run
      world).1.result = .ok whole) : Holds whole := by
  induction names generalizing earlier diagnostics world with
  | nil => exact Except.ok.inj isResult ▸ atStart
  | cons name rest inductionHypothesis =>
    rw [compileActorsFrom, StateT.run_bind] at isResult
    cases ran : (files.compileFile .actor name (earlier.compileInto keepRoots)).run world with
    | mk outcome after =>
      rw [ran] at isResult
      obtain ⟨failure | actors, reports⟩ := outcome
      · cases isResult
      · obtain ⟨script, rfl⟩ := exists_script_of_run_compileFile (congrArg (·.1.result) ran)
        exact inductionHypothesis (keeps earlier name script atStart) isResult

/-- Files compiled behind an earlier dictionary add to it what each of them comes to alone. -/
theorem run_compileActorsFrom {earlier : ActorDictionary}
    (earlierShape : earlier.phrases.WellFormed) (diagnostics : Array Diagnostic)
    {sources : List ActorFile} (readable : ∀ source ∈ sources, source.IsReadable files world) :
    ∃ whole after,
      (files.compileActorsFrom keepRoots earlier diagnostics (sources.map (·.name))).run world =
          (⟨.ok whole, after⟩, world) ∧
        whole.clusters.toList = earlier.clusters.toList ++
          sources.flatMap (fun source => (source.alone keepRoots).dictionary.clusters.toList) ∧
        (∀ path, whole.phrases.find path = earlier.phrases.find path ++
          findBehind path earlier.clusters.size
            (sources.map fun source => (source.alone keepRoots).dictionary)) ∧
        after.toList = diagnostics.toList ++
          sources.flatMap fun source => (source.alone keepRoots).diagnostics.toList := by
  induction sources generalizing earlier diagnostics with
  | nil => exact ⟨earlier, diagnostics, rfl, by simp, by simp [findBehind], by simp⟩
  | cons source rest inductionHypothesis =>
    have sourceReadable := readable source List.mem_cons_self
    have restReadable := fun other member => readable other (List.mem_cons_of_mem source member)
    obtain ⟨behind, sameDiagnostics⟩ :=
      ActorDictionary.isBehind_compileInto keepRoots earlierShape source.name source.script
    obtain ⟨whole, after, ran, clusters, find, reported⟩ :=
      inductionHypothesis behind.wholeShape
        (diagnostics ++ (source.alone keepRoots).diagnostics) restReadable
    refine ⟨whole, after, ?_, ?_, ?_, ?_⟩
    · rw [List.map_cons, run_compileActorsFrom_cons keepRoots sourceReadable, sameDiagnostics]
      exact ran
    · rw [clusters, behind.clusters, Array.toList_append, List.flatMap_cons, List.append_assoc]
      rfl
    · intro path
      rw [find, behind.find, behind.size, List.map_cons, findBehind, List.append_assoc]
      rfl
    · rw [reported, Array.toList_append, List.flatMap_cons, List.append_assoc]

/-- Some actor files are compiled into one dictionary with the clusters of all of them, in the order
of the files. A phrase is stored for the clusters it is stored for in each file alone. -/
structure Gathers (files : FileAccess (StateM World)) (world : World) (keepRoots : Bool)
    (sources : List ActorFile) (whole : ActorDictionary) (diagnostics : Array Diagnostic) :
    Prop where
  ran : (files.compileActors keepRoots (sources.map (·.name))).run world =
    (⟨.ok whole, diagnostics⟩, world)
  clusters : whole.clusters.toList =
    sources.flatMap fun source => (source.alone keepRoots).dictionary.clusters.toList
  find (path : Path) : whole.phrases.find path =
    findBehind path 0 (sources.map fun source => (source.alone keepRoots).dictionary)
  reported : diagnostics.toList =
    sources.flatMap fun source => (source.alone keepRoots).diagnostics.toList

theorem exists_gathers {sources : List ActorFile}
    (readable : ∀ source ∈ sources, source.IsReadable files world) :
    ∃ whole diagnostics, Gathers files world keepRoots sources whole diagnostics := by
  have emptyShape : ActorDictionary.empty.phrases.WellFormed := Trie.wellFormed_empty
  obtain ⟨whole, diagnostics, ran, clusters, find, reported⟩ :=
    run_compileActorsFrom keepRoots emptyShape #[] readable
  refine ⟨whole, diagnostics, ran, clusters, fun path => ?_, reported⟩
  have nothing : ActorDictionary.empty.phrases.find path = [] := Trie.find_empty path
  rw [find, nothing]
  rfl

/-- A file by itself is compiled to what it comes to alone. -/
theorem run_compileActors_single {source : ActorFile} (readable : source.IsReadable files world) :
    (files.compileActors keepRoots [source.name]).run world =
      (⟨.ok (source.alone keepRoots).dictionary, (source.alone keepRoots).diagnostics⟩, world) := by
  rw [compileActors, run_compileActorsFrom_cons keepRoots readable, Array.empty_append]
  rfl

/-- Files that follow keep what the first ones have come to. -/
theorem Gathers.isKeptBy {front back : List ActorFile} {first whole : ActorDictionary}
    {firstDiagnostics diagnostics : Array Diagnostic}
    (fromFront : Gathers files world keepRoots front first firstDiagnostics)
    (fromAll : Gathers files world keepRoots (front ++ back) whole diagnostics) :
    first.IsKeptBy whole where
  clusters := by
    rw [fromAll.clusters, List.flatMap_append, ← fromFront.clusters]
    exact List.prefix_append _ _
  phrases path := by
    let backAlone := back.map fun source => (source.alone keepRoots).dictionary
    have size : first.clusters.size =
        ((front.map fun source => (source.alone keepRoots).dictionary).flatMap
          (·.clusters.toList)).length := by
      rw [List.flatMap_map, ← fromFront.clusters, Array.length_toList]
    refine ⟨findBehind path first.clusters.size backAlone, ?_, fun _ => le_of_mem_findBehind⟩
    rw [fromAll.find, List.map_append, findBehind_append, ← fromFront.find, Nat.zero_add, size]

/-- Actor files that can be read are compiled one by one: what they come to together is what each of
them comes to alone, moved behind the files before it. What the first files come to is kept by the
others, and so nothing at the start of a file goes to the last cluster of the file before it. -/
theorem actor_files_compose {World : Type} (files : FileAccess (StateM World)) (world : World)
    (keepRoots : Bool) (sources : List ActorFile)
    (readable : ∀ source ∈ sources, source.IsReadable files world) :
    (∀ source ∈ sources, (files.compileActors keepRoots [source.name]).run world =
      (⟨.ok (source.alone keepRoots).dictionary, (source.alone keepRoots).diagnostics⟩, world)) ∧
    ∃ whole diagnostics, Gathers files world keepRoots sources whole diagnostics ∧
      ∀ front back, sources = front ++ back → ∃ first firstDiagnostics,
        Gathers files world keepRoots front first firstDiagnostics ∧ first.IsKeptBy whole := by
  refine ⟨fun source member => run_compileActors_single keepRoots (readable source member), ?_⟩
  obtain ⟨whole, diagnostics, fromAll⟩ := exists_gathers keepRoots readable
  refine ⟨whole, diagnostics, fromAll, ?_⟩
  rintro front back rfl
  have frontReadable := fun source member => readable source (List.mem_append_left back member)
  obtain ⟨first, firstDiagnostics, fromFront⟩ := exists_gathers keepRoots frontReadable
  exact ⟨first, firstDiagnostics, fromFront, fromFront.isKeptBy keepRoots fromAll⟩

/-- Access to a table of files. -/
def ofTable : FileAccess (StateM (List ActorFile)) where
  fetch name := fun table =>
    match table.find? (·.name == name) with
    | none => (.error .notFound, table)
    | some file => (.ok (.file file.bytes), table)
  replace name bytes := fun table => (.ok (), ⟨name, bytes⟩ :: table)

/-- Two files with a phrase in common. The second one starts with a synonym, which is skipped. -/
def twoFiles : List ActorFile :=
  [⟨"first", "ALICE_ [USA]\n+AL_\n".toUTF8⟩,
    ⟨"second", "+LOST_\nBOB_ [RUS]\n\t[AFG 010101-020202]\nALICE_ [GBR]\n".toUTF8⟩]

theorem two_files_compose :
    (∀ source ∈ twoFiles, source.IsReadable ofTable twoFiles) ∧
      ∃ whole diagnostics, Gathers ofTable twoFiles true twoFiles whole diagnostics ∧
        whole.phrases.find (Phrase.ofChars "ALICE_".toList).rooted = [0, 2] := by
  have readable : ∀ source ∈ twoFiles, source.IsReadable ofTable twoFiles := by
    refine List.forall_mem_cons.mpr ⟨?_, List.forall_mem_singleton.mpr ?_⟩
    · exact ⟨rfl, by decide +kernel⟩
    · exact ⟨rfl, by decide +kernel⟩
  obtain ⟨-, whole, diagnostics, gathers, -⟩ :=
    actor_files_compose ofTable twoFiles true twoFiles readable
  refine ⟨readable, whole, diagnostics, gathers, ?_⟩
  rw [gathers.find]
  decide +kernel

end FileAccess

end Codebook
