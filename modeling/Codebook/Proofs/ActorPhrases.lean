/-
This file says that every actor phrase is found again. What is stored for a phrase is the path of
its words, and a look-up spells the words of the phrase it is given, whatever links stand between
them. So it finds a cluster with a phrase of the same words, and it can find another one than the
cluster the phrase was written for only if a phrase of the same words was written there.
Main statement: the phrases that are accepted in some actor files are those of the groups of lines,
and each of them is found, for the cluster of its group unless another group has it as well
(`FileAccess.actor_phrases_resolve`).
-/

import Codebook.Proofs.AcceptedLines
import Codebook.Proofs.ActorFiles
import Codebook.Proofs.PhraseLookup
import Codebook.Proofs.PhraseWords
import Codebook.Proofs.TrieNodes

namespace Codebook

open Text

/-! ### The phrases of groups -/

namespace ActorGroup

/-- The phrases of a group: the primary one and its synonyms. -/
def phrases (group : ActorGroup) : List (List Char) :=
  group.phrase :: group.others.filterMap fun line => synonym? line.text

/-- What is stored for the phrases of a group with the given index. -/
def entries (index : Nat) (phrases : List (List Char)) : List (Path × Nat) :=
  phrases.map fun phrase => ((Phrase.ofChars phrase).rooted, index)

/-- What is stored for the phrases of groups that are numbered from `first` on. -/
def entriesFrom (first : Nat) : List ActorGroup → List (Path × Nat)
  | [] => []
  | group :: rest => entries first group.phrases ++ entriesFrom (first + 1) rest

theorem entriesFrom_append (first : Nat) (front back : List ActorGroup) :
    entriesFrom first (front ++ back) =
      entriesFrom first front ++ entriesFrom (first + front.length) back := by
  induction front generalizing first with
  | nil => rfl
  | cons group rest inductionHypothesis =>
    rw [List.cons_append, entriesFrom, entriesFrom, inductionHypothesis, List.append_assoc,
      List.length_cons, Nat.add_assoc, Nat.add_comm 1]

/-- Every phrase of a group is stored, with the index of the group, and nothing else is. -/
theorem mem_entriesFrom {first : Nat} {groups : List ActorGroup} {path : Path} {cluster : Nat} :
    (path, cluster) ∈ entriesFrom first groups ↔
      ∃ index group, groups[index]? = some group ∧ cluster = first + index ∧
        ∃ phrase ∈ group.phrases, (Phrase.ofChars phrase).rooted = path := by
  induction groups generalizing first with
  | nil => simp [entriesFrom]
  | cons group rest inductionHypothesis =>
    simp only [entriesFrom, List.mem_append, inductionHypothesis, entries, List.mem_map,
      Prod.mk.injEq]
    constructor
    · rintro (⟨phrase, member, same, rfl⟩ | ⟨index, other, here, rfl, stored⟩)
      · exact ⟨0, group, rfl, rfl, phrase, member, same⟩
      · exact ⟨index + 1, other, here, by omega, stored⟩
    · rintro ⟨_ | index, other, here, rfl, phrase, member, same⟩
      · obtain rfl := Option.some.inj here
        exact .inl ⟨phrase, member, same, rfl⟩
      · exact .inr ⟨index, other, here, by omega, phrase, member, same⟩

end ActorGroup

/-! ### What lines store -/

namespace ActorState

variable {keepRoots : Bool} {state : ActorState} {complete : List Cluster}
  {current? : Option (String × List DatedCode)}

/-- Completing a cluster stores no phrase. -/
@[simp] theorem phrases_close (keepRoots : Bool) (state : ActorState) :
    (state.close keepRoots).dictionary.phrases = state.dictionary.phrases := by
  unfold close
  cases state.current <;> rfl

/-- A dated code stores no phrase. -/
theorem phrases_put_code (keepRoots : Bool) (state : ActorState) (entry : DatedCode) :
    (state.put keepRoots (.code entry)).dictionary.phrases = state.dictionary.phrases := by
  unfold put
  cases state.current <;> rfl

/-- A primary phrase is stored for the cluster it opens. -/
theorem Shows.phrases_handle_primary (shows : state.Shows complete current?) {line : Line}
    {phrase : List Char} {code? : Option String}
    (isPrimary : primary? line.text = some (phrase, code?)) :
    (state.handle keepRoots line).1.dictionary.phrases =
      state.dictionary.phrases.insert (Phrase.ofChars phrase).rooted
        (complete ++ completed keepRoots current?).length := by
  have closed : (state.close keepRoots).dictionary.clusters.toList =
      complete ++ completed keepRoots current? := shows.close
  rw [handle_eq, ActorItem.read_of_primary isPrimary, ← closed, Array.length_toList]
  simp only [settle, put, phrases_close]

/-- Of the other lines synonyms alone store a phrase, and only while a cluster is open. -/
theorem Shows.phrases_handle_other (shows : state.Shows complete current?) {line : Line}
    (notPrimary : primary? line.text = none) :
    (state.handle keepRoots line).1.dictionary.phrases =
      state.dictionary.phrases.insertAll
        (if current?.isSome then
          ActorGroup.entries complete.length (synonym? line.text).toList else []) := by
  have current := shows.current
  rw [handle_eq]
  cases isSynonym : synonym? line.text with
  | some phrase =>
    rw [ActorItem.read_of_synonym isSynonym, current]
    cases current? with
    | none => rfl
    | some own => simp [settle, put, current, addPhrase, ActorGroup.entries, Trie.insertAll_cons]
  | none =>
    have noPhrase : phrase? line.text = none := by simp [phrase?, notPrimary, isSynonym]
    have nothing : (if current?.isSome then
        ActorGroup.entries complete.length (none : Option (List Char)).toList else []) = [] :=
      ite_self _
    rw [nothing, Trie.insertAll_nil]
    cases isRead : ActorItem.read state.current.isSome line.text with
    | error skip => rfl
    | ok item =>
      obtain ⟨entry, rfl⟩ := ActorItem.exists_code_of_read noPhrase isRead
      exact phrases_put_code keepRoots state entry

/-- The phrases on the synonym lines up to the next primary line. -/
def followingSynonyms (lines : List Line) : List (List Char) :=
  (lines.takeWhile fun line => (primary? line.text).isNone).filterMap fun line =>
    synonym? line.text

theorem followingSynonyms_cons {line : Line} (notPrimary : primary? line.text = none)
    (rest : List Line) :
    followingSynonyms (line :: rest) = (synonym? line.text).toList ++ followingSynonyms rest :=
  filterMap_following_cons (fun line => synonym? line.text) notPrimary rest

/-- The synonyms up to the next primary line go to the open cluster; from there on, what is stored
is what the groups store. -/
theorem Shows.phrases_foldl_handle (lines : List Line) (shows : state.Shows complete current?) :
    (lines.foldl (fun state line => (state.handle keepRoots line).1) state).dictionary.phrases =
      state.dictionary.phrases.insertAll
        ((if current?.isSome then
            ActorGroup.entries complete.length (followingSynonyms lines) else []) ++
          ActorGroup.entriesFrom (complete ++ completed keepRoots current?).length
            (ActorGroup.ofLines lines)) := by
  induction lines generalizing state complete current? with
  | nil =>
    simp [ActorGroup.ofLines, ActorGroup.entriesFrom, followingSynonyms, ActorGroup.entries]
  | cons line rest inductionHypothesis =>
    rw [List.foldl_cons, ActorGroup.ofLines]
    cases isPrimary : primary? line.text with
    | none =>
      rw [inductionHypothesis (shows.handle_other isPrimary), shows.phrases_handle_other isPrimary,
        ← Trie.insertAll_append, followingSynonyms_cons isPrimary]
      cases current? <;> simp [completed, ActorGroup.entries]
    | some own =>
      have noSynonyms : followingSynonyms (line :: rest) = [] := by
        simp [followingSynonyms, isPrimary]
      have noneBefore : (if current?.isSome then
          ActorGroup.entries complete.length ([] : List (List Char)) else []) = [] :=
        ite_self _
      rw [inductionHypothesis (shows.handle_primary isPrimary),
        shows.phrases_handle_primary isPrimary, noSynonyms, noneBefore, List.nil_append,
        Option.isSome_some, if_pos rfl]
      generalize complete ++ completed keepRoots current? = before
      have opened (own : String × List DatedCode) :
          (before ++ completed keepRoots (some own)).length = before.length + 1 := by
        simp [completed]
      rw [opened]
      rfl

end ActorState

/-! ### Dictionaries of groups -/

namespace ActorDictionary

/-- The dictionary of some groups: one cluster for each, and its phrases. -/
def ofGroups (keepRoots : Bool) (groups : List ActorGroup) : ActorDictionary where
  phrases := Trie.empty.insertAll (ActorGroup.entriesFrom 0 groups)
  clusters := (groups.map (·.cluster keepRoots)).toArray

/-- A file that does not fail adds its groups. -/
theorem compileInto_ofGroups (keepRoots : Bool) (front : List ActorGroup) (file : String)
    (script : Script)
    (complete : ((ofGroups keepRoots front).compileInto keepRoots file script).failedAfter = none) :
    ((ofGroups keepRoots front).compileInto keepRoots file script).dictionary =
      ofGroups keepRoots (front ++ script.groups) := by
  have notFailed : script.untilStop.failedAfter = none := complete
  have shows := ActorState.shows_of_closed (ofGroups keepRoots front)
  have phrases : ((ofGroups keepRoots front).compileInto keepRoots file script).dictionary.phrases =
      (ofGroups keepRoots (front ++ script.groups)).phrases := by
    simp only [compileInto, notFailed, handleLines_fst, Option.isNone_none, if_true,
      ActorState.phrases_close, shows.phrases_foldl_handle, Script.ofLines_untilStop]
    simp [ofGroups, ActorState.completed, ActorGroup.entriesFrom_append, Trie.insertAll_append]
  have clusters :
      ((ofGroups keepRoots front).compileInto keepRoots file script).dictionary.clusters =
        (ofGroups keepRoots (front ++ script.groups)).clusters := by
    rw [← Array.toList_inj, clusters_compileInto keepRoots _ file script complete]
    simp [ofGroups, Script.groups]
  exact congrArg₂ ActorDictionary.mk phrases clusters

/-- The indices that are stored name clusters. -/
theorem lt_size_of_mem_payloads {keepRoots : Bool} {groups : List ActorGroup} {node cluster : Nat}
    (stored : cluster ∈ (ofGroups keepRoots groups).phrases.payloads node) :
    cluster < (ofGroups keepRoots groups).clusters.size := by
  obtain ⟨path, inserted, -⟩ := Trie.exists_mem_of_mem_payloads stored
  obtain ⟨index, group, here, rfl, -⟩ := ActorGroup.mem_entriesFrom.mp inserted
  obtain ⟨present, -⟩ := List.getElem?_eq_some_iff.mp here
  simpa [ofGroups] using present

theorem getElem?_clusters_ofGroups (keepRoots : Bool) {groups : List ActorGroup} {index : Nat}
    {group : ActorGroup} (here : groups[index]? = some group) :
    (ofGroups keepRoots groups).clusters[index]? = some (group.cluster keepRoots) := by
  simp [ofGroups, here]

/-- A phrase finds the cluster of a group with a phrase of the same words. -/
theorem exists_lookup?_eq_some (keepRoots : Bool) {groups : List ActorGroup} {group : ActorGroup}
    (member : group ∈ groups) {phrase : List Char} (isPhrase : phrase ∈ group.phrases) :
    ∃ (index : Nat) (found : ActorGroup), groups[index]? = some found ∧
      (ofGroups keepRoots groups).lookup? (String.ofList phrase) = some (found.cluster keepRoots) ∧
      ∃ other ∈ found.phrases, Phrase.upperWords other = Phrase.upperWords phrase := by
  obtain ⟨links, length, path⟩ := Phrase.exists_links_rooted phrase
  obtain ⟨own, ownHere⟩ := List.mem_iff_getElem?.mp member
  have inserted : (Trie.spelled (Phrase.splitWords phrase) links, own) ∈
      ActorGroup.entriesFrom 0 groups :=
    ActorGroup.mem_entriesFrom.mpr
      ⟨own, group, ownHere, (Nat.zero_add own).symm, phrase, isPhrase, path⟩
  have nonempty := Trie.findWords_ne_nil length inserted
  obtain ⟨index, rest, shape⟩ := List.exists_cons_of_ne_nil nonempty
  have foundFirst : index ∈ (Trie.empty.insertAll (ActorGroup.entriesFrom 0 groups)).findWords
      (Phrase.splitWords phrase) := by
    rw [shape]
    exact List.mem_cons_self
  obtain ⟨otherLinks, otherLength, otherInserted⟩ := Trie.exists_mem_of_mem_findWords foundFirst
  obtain ⟨_, found, here, rfl, other, isOther, otherPath⟩ :=
    ActorGroup.mem_entriesFrom.mp otherInserted
  rw [Nat.zero_add] at shape
  refine ⟨_, found, here, ?_, other, isOther, ?_⟩
  · have clusterHere := getElem?_clusters_ofGroups keepRoots here
    rw [lookup?, String.toList_ofList]
    show ((Trie.empty.insertAll _).findWords _).head?.bind _ = _
    rw [shape, List.head?_cons, Option.bind_some, clusterHere]
  · exact (Phrase.upperWords_of_spelled otherLength otherPath.symm).symm

end ActorDictionary

/-! ### Several files -/

/-- The phrases that are accepted are those of the groups. -/
theorem Script.accepted_phrases (keepRoots : Bool) (earlier : ActorDictionary) (script : Script) :
    script.accepted (fun line => phrase? line.text) keepRoots earlier =
      script.groups.flatMap (·.phrases) := by
  rw [script.accepted_eq_groups readsAccepted_phrase]
  rfl

namespace FileAccess

variable {World : Type} {files : FileAccess (StateM World)} {world : World} (keepRoots : Bool)

/-- Files that can be read give the dictionary of all their groups. -/
theorem run_compileActorsFrom_ofGroups (front : List ActorGroup) (diagnostics : Array Diagnostic)
    {sources : List ActorFile} (readable : ∀ source ∈ sources, source.IsReadable files world) :
    ∃ after,
      (files.compileActorsFrom keepRoots (.ofGroups keepRoots front) diagnostics
          (sources.map (·.name))).run world =
        (⟨.ok (.ofGroups keepRoots (front ++ sources.flatMap (·.script.groups))), after⟩,
          world) := by
  induction sources generalizing front diagnostics with
  | nil => exact ⟨diagnostics, by rw [List.flatMap_nil, List.append_nil]; rfl⟩
  | cons source rest inductionHypothesis =>
    have sourceReadable := readable source List.mem_cons_self
    have restReadable := fun other member => readable other (List.mem_cons_of_mem source member)
    have compiled : ((ActorDictionary.ofGroups keepRoots front).compileInto keepRoots source.name
        source.script).dictionary = .ofGroups keepRoots (front ++ source.script.groups) :=
      ActorDictionary.compileInto_ofGroups keepRoots front source.name source.script
        sourceReadable.decodable
    obtain ⟨after, ran⟩ := inductionHypothesis (front ++ source.script.groups)
      (diagnostics ++ ((ActorDictionary.ofGroups keepRoots front).compileInto keepRoots source.name
        source.script).diagnostics) restReadable
    refine ⟨after, ?_⟩
    rw [List.map_cons, run_compileActorsFrom_cons keepRoots sourceReadable, compiled,
      List.flatMap_cons, ← List.append_assoc]
    exact ran

end FileAccess

/-- A phrase belongs to a group alone if no other group has a phrase of the same words. -/
def ActorGroup.OwnsAlone (groups : List ActorGroup) (index : Nat) (phrase : List Char) : Prop :=
  ∀ other otherGroup, groups[other]? = some otherGroup →
    (∃ same ∈ otherGroup.phrases, Phrase.upperWords same = Phrase.upperWords phrase) →
    other = index

theorem ActorGroup.ownsAlone_iff {groups : List ActorGroup} {index : Nat} {phrase : List Char} :
    ActorGroup.OwnsAlone groups index phrase ↔
      ∀ entry ∈ groups.zipIdx, (entry.1.phrases.any fun same =>
        Phrase.upperWords same = Phrase.upperWords phrase) → entry.2 = index := by
  simp only [OwnsAlone, List.any_eq_true, decide_eq_true_eq, Prod.forall,
    List.mem_zipIdx_iff_getElem?]
  exact forall_comm

instance (groups : List ActorGroup) (index : Nat) (phrase : List Char) :
    Decidable (ActorGroup.OwnsAlone groups index phrase) :=
  decidable_of_iff' _ ActorGroup.ownsAlone_iff

/-- Every phrase of every group is found, and a phrase that no other group has leads to the cluster
of its group. -/
structure ActorDictionary.Resolves (keepRoots : Bool) (groups : List ActorGroup)
    (whole : ActorDictionary) : Prop where
  inRange (node : Nat) : ∀ cluster ∈ whole.phrases.payloads node, cluster < whole.clusters.size
  clusters : whole.clusters.toList = groups.map (·.cluster keepRoots)
  isFound {index : Nat} {group : ActorGroup} (here : groups[index]? = some group)
    {phrase : List Char} (isPhrase : phrase ∈ group.phrases) :
    (whole.lookup? (String.ofList phrase)).isSome
  findsOwn {index : Nat} {group : ActorGroup} (here : groups[index]? = some group)
    {phrase : List Char} (isPhrase : phrase ∈ group.phrases)
    (alone : ActorGroup.OwnsAlone groups index phrase) :
    whole.lookup? (String.ofList phrase) = some (group.cluster keepRoots)

theorem ActorDictionary.resolves_ofGroups (keepRoots : Bool) (groups : List ActorGroup) :
    (ofGroups keepRoots groups).Resolves keepRoots groups where
  inRange node cluster stored := lt_size_of_mem_payloads stored
  clusters := by rw [ofGroups]
  isFound here phrase isPhrase := by
    obtain ⟨index, group, -, found, -⟩ :=
      exists_lookup?_eq_some keepRoots (List.mem_of_getElem? here) isPhrase
    exact Option.isSome_of_eq_some found
  findsOwn {index group} here phrase isPhrase alone := by
    obtain ⟨other, otherGroup, otherHere, found, sameWords⟩ :=
      exists_lookup?_eq_some keepRoots (List.mem_of_getElem? here) isPhrase
    obtain rfl := alone other otherGroup otherHere sameWords
    obtain rfl := Option.some.inj (otherHere.symm.trans here)
    exact found

namespace FileAccess

variable {World : Type} (files : FileAccess (StateM World)) (world : World) (keepRoots : Bool)

/-- The phrases that are accepted in some actor files are those of the groups, and in what the files
are compiled to every one of them is found. Unless another group has a phrase of the same words,
the primary phrase of a group and its synonyms all lead to the one cluster of the group. -/
theorem actor_phrases_resolve (sources : List ActorFile)
    (readable : ∀ source ∈ sources, source.IsReadable files world) :
    (∀ (source : ActorFile) earlier,
      source.script.accepted (fun line => phrase? line.text) keepRoots earlier =
        source.script.groups.flatMap (·.phrases)) ∧
      ∃ whole diagnostics,
        (files.compileActors keepRoots (sources.map (·.name))).run world =
          (⟨.ok whole, diagnostics⟩, world) ∧
        whole.Resolves keepRoots (sources.flatMap (·.script.groups)) := by
  refine ⟨fun source earlier => source.script.accepted_phrases keepRoots earlier, ?_⟩
  obtain ⟨diagnostics, ran⟩ := run_compileActorsFrom_ofGroups keepRoots [] #[] readable
  exact ⟨_, diagnostics, ran, ActorDictionary.resolves_ofGroups keepRoots _⟩

/-- The synonym in the first file leads to the cluster there. The primary phrase of that cluster
stands in the second file as well, and is found all the same. -/
theorem two_files_resolve :
    (∀ source ∈ twoFiles, source.IsReadable ofTable twoFiles) ∧
      ActorGroup.OwnsAlone (twoFiles.flatMap (·.script.groups)) 0 "AL_".toList ∧
      ∃ whole diagnostics,
        (ofTable.compileActors true (twoFiles.map (·.name))).run twoFiles =
          (⟨.ok whole, diagnostics⟩, twoFiles) ∧
        whole.lookup? "AL_" = some ⟨[⟨.always, "USA"⟩], some "ALICE_"⟩ ∧
        (whole.lookup? "ALICE_").isSome := by
  have readable : ∀ source ∈ twoFiles, source.IsReadable ofTable twoFiles := by
    refine List.forall_mem_cons.mpr ⟨?_, List.forall_mem_singleton.mpr ?_⟩
    · exact ⟨rfl, by decide +kernel⟩
    · exact ⟨rfl, by decide +kernel⟩
  have alone : ActorGroup.OwnsAlone (twoFiles.flatMap (·.script.groups)) 0 "AL_".toList := by
    decide +kernel
  have first : (twoFiles.flatMap (·.script.groups))[0]? =
      some ⟨"ALICE_".toList, some "USA", [⟨2, "+AL_".toList⟩]⟩ := by
    decide +kernel
  obtain ⟨-, whole, diagnostics, ran, resolves⟩ :=
    actor_phrases_resolve ofTable twoFiles true twoFiles readable
  refine ⟨readable, alone, whole, diagnostics, ran, ?_, ?_⟩
  · exact resolves.findsOwn first (by decide +kernel) alone
  · exact resolves.isFound first (by decide +kernel)

end FileAccess

end Codebook
