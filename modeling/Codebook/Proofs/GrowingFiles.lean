/-
This file says that dictionaries grow with their files. When something is written behind the last
line of a file, what has been stored for a path stays in front of what is added there. Only the last
cluster of an actor file can still be extended, by codes behind those it has, because a cluster is
closed by the next primary line. Main statement: what a text comes to is kept by every text that
starts with it, if it consists of complete lines (`dictionaries_grow`).
-/

import Codebook.Proofs.ActorPhrases
import Codebook.Proofs.AgentLines
import Codebook.Proofs.LinesInOrder
import Codebook.Proofs.TextLines
import Codebook.Proofs.VerbIntegrity

namespace Codebook

/-- What is inserted first is found first. -/
theorem Trie.find_prefix {Payload : Type} {first whole : List (Path × Payload)}
    (isPrefix : first <+: whole) (path : Path) :
    (Trie.empty.insertAll first).find path <+: (Trie.empty.insertAll whole).find path := by
  rw [find_insertAll, find_insertAll]
  exact (isPrefix.filter _).map _

/-! ### Verbs -/

/-- A verb dictionary is kept by one that adds to it. -/
structure VerbDictionary.GrowsTo (first whole : VerbDictionary) : Prop where
  forms (path : Path) : first.forms.find path <+: whole.forms.find path
  patterns (path : Path) : first.patterns.find path <+: whole.patterns.find path
  synsets (path : Path) : first.synsets.find path <+: whole.synsets.find path
  defined (name : String) : first.hasSynset name = true → whole.hasSynset name = true
  form (word : String) (entry : VerbEntry) :
    first.form? word = some entry → whole.form? word = some entry

theorem VerbDictionary.growsTo_compile (file : String) {first whole : Script}
    (isPrefix : first.lines <+: whole.lines) :
    (compile file first).dictionary.GrowsTo (compile file whole).dictionary := by
  obtain ⟨back, append⟩ := isPrefix
  have traced {Seen : Type} (view : VerbState → Line → List Seen) :
      (VerbState.start.trace view first.lines).flatten <+:
        (VerbState.start.trace view whole.lines).flatten := by
    rw [← append, VerbState.trace_append, List.flatten_append]
    exact List.prefix_append _ _
  have forms (path : Path) : (compile file first).dictionary.forms.find path <+:
      (compile file whole).dictionary.forms.find path := by
    rw [forms_compile, forms_compile]
    exact Trie.find_prefix (traced VerbState.formsAdded) path
  exact {
    forms
    patterns := fun path => by
      rw [patterns_compile, patterns_compile, VerbState.addedBy_eq_trace,
        VerbState.addedBy_eq_trace]
      exact Trie.find_prefix (traced VerbState.added) path
    synsets := fun path => by
      rw [synsets_compile, synsets_compile]
      exact Trie.find_prefix (traced VerbState.membersAdded) path
    defined := fun name defined => by
      rw [hasSynset, dictionary_compile] at defined ⊢
      rw [← append, VerbState.run_append]
      exact VerbState.contains_synsetNames_run defined back
    form := fun word entry known => by
      obtain ⟨added, same⟩ := forms (formPath (Text.upper word))
      rw [form?] at known ⊢
      rw [← same, List.head?_append, known, Option.some_or] }

/-! ### Agents -/

/-- An agent dictionary is kept by one that adds to it. -/
structure AgentDictionary.GrowsTo (first whole : AgentDictionary) : Prop where
  phrases (path : Path) : first.phrases.find path <+: whole.phrases.find path

theorem AgentDictionary.growsTo_compile (file : String) {first whole : Script}
    (isPrefix : first.lines <+: whole.lines) :
    (compile file first).dictionary.GrowsTo (compile file whole).dictionary where
  phrases path := by
    obtain ⟨back, append⟩ := isPrefix
    rw [phrases_compile, phrases_compile, ← append, addedFrom_append]
    exact Trie.find_prefix (List.prefix_append _ _) path

/-! ### Actors -/

/-- An actor dictionary is kept by one that adds to it, and may have codes added to its last
cluster. -/
structure ActorDictionary.GrowsTo (first whole : ActorDictionary) : Prop where
  phrases (path : Path) : first.phrases.find path <+: whole.phrases.find path
  closed : first.clusters.toList.dropLast <+: whole.clusters.toList
  last (cluster : Cluster) : first.clusters.back? = some cluster →
    ∃ extended, whole.clusters[first.clusters.size - 1]? = some extended ∧
      extended.root = cluster.root ∧ cluster.entries <+: extended.entries

namespace ActorGroup

/-- Groups go on: there are lines behind them, which go to the last group until there is a new
one. -/
inductive GoOn : List ActorGroup → List ActorGroup → Prop
  | nil (groups : List ActorGroup) : GoOn [] groups
  | last (group : ActorGroup) (more : List Line) (groups : List ActorGroup) :
    GoOn [group] ({ group with others := group.others ++ more } :: groups)
  | cons (group : ActorGroup) {first whole : List ActorGroup} (goOn : GoOn first whole) :
    GoOn (group :: first) (group :: whole)

theorem ofLines_eq_nil {lines : List Line} (noPrimary : ∀ line ∈ lines, primary? line.text = none) :
    ofLines lines = [] := by
  induction lines with
  | nil => rfl
  | cons line rest inductionHypothesis =>
    obtain ⟨notFirst, notLater⟩ := List.forall_mem_cons.mp noPrimary
    rw [ofLines, notFirst]
    exact inductionHypothesis notLater

theorem goOn_ofLines (front back : List Line) : GoOn (ofLines front) (ofLines (front ++ back)) := by
  induction front with
  | nil => exact .nil _
  | cons line rest inductionHypothesis =>
    rw [List.cons_append, ofLines, ofLines]
    cases primary? line.text with
    | none => exact inductionHypothesis
    | some own =>
      dsimp only
      rw [List.takeWhile_append]
      split
      next noPrimary =>
        -- this group is the last one, so it is the one that lines are added to
        have whole := (List.takeWhile_prefix _).eq_of_length noPrimary
        have others := List.takeWhile_eq_self_iff.mp whole
        rw [whole, ofLines_eq_nil fun other member => Option.isNone_iff_eq_none.mp
          (others other member)]
        exact .last ⟨own.1, own.2, rest⟩ _ _
      next => exact .cons _ inductionHypothesis

variable {first whole : List ActorGroup}

theorem GoOn.entriesFrom_prefix (goOn : GoOn first whole) (index : Nat) :
    entriesFrom index first <+: entriesFrom index whole := by
  induction goOn generalizing index with
  | nil groups => exact List.nil_prefix
  | last group more groups =>
    rw [entriesFrom, entriesFrom, entriesFrom, List.append_nil]
    simp only [phrases, entries, List.filterMap_append, ← List.cons_append, List.map_append,
      List.append_assoc]
    exact List.prefix_append _ _
  | cons group goOn inductionHypothesis =>
    rw [entriesFrom, entriesFrom]
    exact (List.prefix_append_right_inj _).mpr (inductionHypothesis (index + 1))

/-- A group that more lines go to is the same, or it is the last. -/
theorem GoOn.getElem? (goOn : GoOn first whole) {index : Nat} {group : ActorGroup}
    (here : first[index]? = some group) :
    ∃ more, whole[index]? = some { group with others := group.others ++ more } := by
  induction goOn generalizing index with
  | nil groups => cases here
  | last other more groups =>
    cases index with
    | zero =>
      obtain rfl := Option.some.inj here
      exact ⟨more, rfl⟩
    | succ index => cases here
  | cons other goOn inductionHypothesis =>
    cases index with
    | zero =>
      obtain rfl := Option.some.inj here
      exact ⟨[], by rw [List.append_nil]; rfl⟩
    | succ index => exact inductionHypothesis here

theorem GoOn.dropLast_prefix (goOn : GoOn first whole) : first.dropLast <+: whole := by
  induction goOn with
  | nil groups => exact List.nil_prefix
  | last group more groups => exact List.nil_prefix
  | @cons group first whole goOn inductionHypothesis =>
    -- a group is dropped only if it is the last one
    cases first with
    | nil => exact List.nil_prefix
    | cons next others => exact (List.prefix_cons_inj group).mpr inductionHypothesis

end ActorGroup

namespace ActorDictionary

theorem growsTo_ofGroups (keepRoots : Bool) {first whole : List ActorGroup}
    (goOn : ActorGroup.GoOn first whole) :
    (ofGroups keepRoots first).GrowsTo (ofGroups keepRoots whole) where
  phrases path := Trie.find_prefix (goOn.entriesFrom_prefix 0) path
  closed := by
    show (first.map _).dropLast <+: whole.map _
    rw [← List.map_dropLast]
    exact goOn.dropLast_prefix.map _
  last cluster isLast := by
    have size : (ofGroups keepRoots first).clusters.size = first.length := by simp [ofGroups]
    rw [Array.back?_eq_getElem?, size] at isLast
    rw [size]
    simp only [ofGroups, List.getElem?_toArray, List.getElem?_map] at isLast ⊢
    obtain ⟨group, here, rfl⟩ := Option.map_eq_some_iff.mp isLast
    obtain ⟨more, there⟩ := goOn.getElem? here
    let extended : ActorGroup := { group with others := group.others ++ more }
    refine ⟨extended.cluster keepRoots, by rw [there, Option.map_some], rfl, ?_⟩
    show ActorGroup.ownCode group.code? ++ _ <+: ActorGroup.ownCode group.code? ++ _
    rw [List.filterMap_append, ← List.append_assoc]
    exact List.prefix_append _ _

/-- A file that is read to its end gives the dictionary of its groups. -/
theorem compileInto_empty (keepRoots : Bool) (file : String) {script : Script}
    (complete : script.untilStop.failedAfter = none) :
    (empty.compileInto keepRoots file script).dictionary =
      ofGroups keepRoots (ActorGroup.ofLines script.untilStop.lines) := by
  rw [Script.ofLines_untilStop]
  exact compileInto_ofGroups keepRoots [] file script complete

end ActorDictionary

namespace Script

/-- The lines up to the stop marker stay the first ones. -/
theorem untilStop_prefix {first whole : Script} (isPrefix : first.lines <+: whole.lines) :
    first.untilStop.lines <+: whole.untilStop.lines := by
  obtain ⟨back, append⟩ := isPrefix
  rw [lines_untilStop_eq, lines_untilStop_eq, ← append, List.takeWhile_append]
  split
  next noStop =>
    rw [(List.takeWhile_prefix _).eq_of_length noStop]
    exact List.prefix_append _ _
  next => exact List.prefix_rfl

end Script

theorem ActorDictionary.growsTo_compileInto (keepRoots : Bool) (file : String)
    {first whole : Script} (firstComplete : first.untilStop.failedAfter = none)
    (wholeComplete : whole.untilStop.failedAfter = none) (isPrefix : first.lines <+: whole.lines) :
    (empty.compileInto keepRoots file first).dictionary.GrowsTo
      (empty.compileInto keepRoots file whole).dictionary := by
  obtain ⟨back, append⟩ := Script.untilStop_prefix isPrefix
  rw [compileInto_empty keepRoots file firstComplete, compileInto_empty keepRoots file wholeComplete,
    ← append]
  exact growsTo_ofGroups keepRoots (ActorGroup.goOn_ofLines _ back)

/-! ### Texts -/

/-- What a compiler gets to see of a file with the given text. -/
def Script.ofText (text : String) : Script :=
  .ofLines (PhysicalLine.linesOfBytes text.toUTF8)

namespace Script

theorem failedAfter_ofText (text : String) : (ofText text).failedAfter = none := by
  refine failedAfter_ofLines_eq_none ?_
  rw [PhysicalLine.linesOfBytes_toUTF8]
  exact PhysicalLine.undecodable_not_mem_linesOfText _

/-- The cleaned lines of a text of complete lines are the first ones of every text that starts with
it. If a comment is still open at its end, they are so none the less. -/
theorem lines_ofText_prefix {front : String}
    (complete : ∀ last ∈ front.toList.getLast?, last = '\n') (back : String) :
    (ofText front).lines <+: (ofText (front ++ back)).lines := by
  have readToEnd := failedAfter_ofText front
  rw [ofText, PhysicalLine.linesOfBytes_toUTF8] at readToEnd
  rw [ofText, ofText, PhysicalLine.linesOfBytes_toUTF8, PhysicalLine.linesOfBytes_toUTF8,
    String.toList_append, PhysicalLine.linesOfText_append complete]
  exact lines_prefix_of_append readToEnd _

end Script

/-- A compilation is kept by another one. Both of them come to their end. -/
structure Compilation.GrowsTo {Dictionary : Type} (grows : Dictionary → Dictionary → Prop)
    (first whole : Compilation Dictionary) : Prop where
  firstComplete : first.failedAfter = none
  wholeComplete : whole.failedAfter = none
  dictionary : grows first.dictionary whole.dictionary
  diagnostics : first.diagnostics.toList <+: whole.diagnostics.toList

/-- Whatever is written behind a text of complete lines, its dictionary and its diagnostics are
kept. What is stored for a path is added to at its end, so that a form that is known keeps its
entry, and so are the codes of the last cluster of an actor file. All other clusters stay as they
are. -/
theorem dictionaries_grow {front : String}
    (complete : ∀ last ∈ front.toList.getLast?, last = '\n') (back file : String)
    (keepRoots : Bool) :
    (VerbDictionary.compile file (.ofText front)).GrowsTo VerbDictionary.GrowsTo
        (VerbDictionary.compile file (.ofText (front ++ back))) ∧
      (ActorDictionary.empty.compileInto keepRoots file (.ofText front)).GrowsTo
        ActorDictionary.GrowsTo
        (ActorDictionary.empty.compileInto keepRoots file (.ofText (front ++ back))) ∧
      (AgentDictionary.compile file (.ofText front)).GrowsTo AgentDictionary.GrowsTo
        (AgentDictionary.compile file (.ofText (front ++ back))) := by
  have isPrefix := Script.lines_ofText_prefix complete back
  have readToEnd := Script.failedAfter_ofText
  have untilStop := fun text => Script.failedAfter_untilStop_eq_none (readToEnd text)
  refine ⟨⟨readToEnd _, readToEnd _, ?_, ?_⟩, ⟨untilStop _, untilStop _, ?_, ?_⟩,
    ⟨readToEnd _, readToEnd _, ?_, ?_⟩⟩
  · exact VerbDictionary.growsTo_compile file isPrefix
  · exact diagnostics_handleLines_prefix VerbState.handle file .start isPrefix
  · exact ActorDictionary.growsTo_compileInto keepRoots file (untilStop _) (untilStop _) isPrefix
  · exact diagnostics_handleLines_prefix (ActorState.handle keepRoots) file _
      (Script.untilStop_prefix isPrefix)
  · exact AgentDictionary.growsTo_compile file isPrefix
  · exact diagnostics_handleLines_prefix AgentState.handle file .start isPrefix

/-- Two complete lines that are entries of every dictionary. -/
def runText : String := "--- [010]\nRUN [011]\n"

/-- A code for the last cluster, and a verb that is there already. -/
def laterText : String := "\t[AFG 010101-020202]\nRUN [012]\n"

theorem runText_grows :
    (∀ last ∈ runText.toList.getLast?, last = '\n') ∧
      (VerbDictionary.compile "run" (.ofText (runText ++ laterText))).dictionary.form? "run" =
        some ⟨"RUN", "011", 2⟩ ∧
      ∃ extended, (ActorDictionary.empty.compileInto true "run"
          (.ofText (runText ++ laterText))).dictionary.clusters[1]? = some extended ∧
        extended.root = some "RUN" ∧ [⟨.always, "011"⟩] <+: extended.entries := by
  have ends : runText.toList.getLast? = some '\n' := by decide +kernel
  have complete : ∀ last ∈ runText.toList.getLast?, last = '\n' := by
    rw [ends]
    exact fun last same => (Option.some.inj same).symm
  have size : (ActorDictionary.empty.compileInto true "run"
      (.ofText runText)).dictionary.clusters.size - 1 = 1 := by
    decide +kernel
  obtain ⟨verbs, actors, -⟩ := dictionaries_grow complete laterText "run" true
  have last := actors.dictionary.last ⟨[⟨.always, "011"⟩], some "RUN"⟩ (by decide +kernel)
  rw [size] at last
  exact ⟨complete, verbs.dictionary.form "run" ⟨"RUN", "011", 2⟩ (by decide +kernel), last⟩

end Codebook
