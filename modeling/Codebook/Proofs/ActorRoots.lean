/-
This file says what it changes to keep the roots of clusters. Erasing all roots commutes with every
step of the compiler, for a root is written when a cluster is completed and is never read. Main
statement: whatever the files are, compiling them without roots comes to what compiling them with
roots comes to, with the roots erased; and where roots are kept every cluster has the primary phrase
of its group as its root (`FileAccess.roots_only_add`).
-/

import Codebook.Proofs.ActorPhrases

namespace Codebook

/-! ### Dictionaries without roots -/

def Cluster.withoutRoot (cluster : Cluster) : Cluster :=
  { cluster with root := none }

namespace ActorDictionary

/-- The dictionary with the same phrases and the same entries, and no root in any cluster. -/
def withoutRoots (dictionary : ActorDictionary) : ActorDictionary :=
  { dictionary with clusters := dictionary.clusters.map (·.withoutRoot) }

theorem withoutRoots_empty : empty.withoutRoots = empty := by
  rw [withoutRoots, empty, Array.map_empty]

theorem size_withoutRoots (dictionary : ActorDictionary) :
    dictionary.withoutRoots.clusters.size = dictionary.clusters.size :=
  Array.size_map

/-- A change of one cluster commutes with erasing the roots if it does so on every cluster. -/
theorem withoutRoots_modify (dictionary : ActorDictionary) (index : Nat)
    (change other : Cluster → Cluster)
    (commutes : ∀ cluster, (change cluster).withoutRoot = other cluster.withoutRoot) :
    withoutRoots { dictionary with clusters := dictionary.clusters.modify index change } =
      { dictionary.withoutRoots with
        clusters := dictionary.withoutRoots.clusters.modify index other } := by
  have clusters : (dictionary.clusters.modify index change).map (·.withoutRoot) =
      (dictionary.clusters.map (·.withoutRoot)).modify index other := by
    ext position : 1
    · simp
    · simp only [Array.getElem_map, Array.getElem_modify]
      split
      next => exact commutes _
      next => rfl
  exact congrArg (ActorDictionary.mk dictionary.phrases) clusters

end ActorDictionary

/-! ### Lines -/

namespace ActorState

def withoutRoots (state : ActorState) : ActorState :=
  { state with dictionary := state.dictionary.withoutRoots }

variable (keepRoots : Bool) (state : ActorState)

/-- Completing a cluster may write its root, which is erased, and does nothing else. -/
theorem withoutRoots_close :
    (state.close keepRoots).withoutRoots = state.withoutRoots.close false := by
  obtain ⟨dictionary, _ | cluster⟩ := state
  · rfl
  · refine congrArg (ActorState.mk · none) (dictionary.withoutRoots_modify cluster.index _ _ ?_)
    cases keepRoots <;> exact fun _ => rfl

theorem withoutRoots_addEntry (entry : DatedCode) (cluster : Nat) :
    (state.addEntry entry cluster).withoutRoots = state.withoutRoots.addEntry entry cluster :=
  congrArg (ActorState.mk · state.current)
    (state.dictionary.withoutRoots_modify cluster _ _ fun _ => rfl)

theorem withoutRoots_put (item : ActorItem) :
    (state.put keepRoots item).withoutRoots = state.withoutRoots.put false item := by
  cases item with
  | primary phrase code? =>
    have closed : (state.withoutRoots.close false).dictionary =
        (state.close keepRoots).dictionary.withoutRoots :=
      (congrArg ActorState.dictionary (state.withoutRoots_close keepRoots)).symm
    simp only [put, closed, ActorDictionary.size_withoutRoots]
    simp [withoutRoots, ActorDictionary.withoutRoots, Cluster.withoutRoot]
  | synonym phrase =>
    obtain ⟨dictionary, _ | cluster⟩ := state
    · rfl
    · rfl
  | code entry =>
    obtain ⟨dictionary, _ | cluster⟩ := state
    · rfl
    · exact withoutRoots_addEntry _ entry cluster.index

/-- A line has the same fate without roots. -/
theorem withoutRoots_handle (line : Line) :
    state.withoutRoots.handle false line =
      ((state.handle keepRoots line).1.withoutRoots, (state.handle keepRoots line).2) := by
  have sameCurrent : state.withoutRoots.current = state.current := rfl
  rw [handle_eq, handle_eq, sameCurrent]
  cases ActorItem.read state.current.isSome line.text with
  | ok item => exact congrArg (·, none) (state.withoutRoots_put keepRoots item).symm
  | error skip => rfl

theorem withoutRoots_handleLines (file : String) (lines : List Line) :
    handleLines (handle false) file state.withoutRoots lines =
      ((handleLines (handle keepRoots) file state lines).1.withoutRoots,
        (handleLines (handle keepRoots) file state lines).2) := by
  induction lines generalizing state with
  | nil => rfl
  | cons line rest inductionHypothesis =>
    rw [handleLines_cons, handleLines_cons, withoutRoots_handle keepRoots, inductionHypothesis]

end ActorState

/-! ### Files -/

/-- Erasing the roots before a file is compiled without roots comes to the same as erasing them
after it is compiled, with roots or without. -/
theorem ActorDictionary.withoutRoots_compileInto (keepRoots : Bool) (earlier : ActorDictionary)
    (file : String) (script : Script) :
    earlier.withoutRoots.compileInto false file script =
      { earlier.compileInto keepRoots file script with
        dictionary := (earlier.compileInto keepRoots file script).dictionary.withoutRoots } := by
  have handled := ActorState.withoutRoots_handleLines keepRoots ⟨earlier, none⟩ file
    script.untilStop.lines
  have start : ActorState.withoutRoots ⟨earlier, none⟩ = ⟨earlier.withoutRoots, none⟩ := rfl
  rw [start] at handled
  unfold compileInto
  simp only [handled]
  split
  next => rw [← ActorState.withoutRoots_close keepRoots]; rfl
  next => rfl

/-- An outcome with its dictionary changed, if there is one. -/
def FileAccess.Outcome.map {Dictionary Other : Type} (change : Dictionary → Other)
    (outcome : Outcome Dictionary) : Outcome Other :=
  ⟨outcome.result.map change, outcome.diagnostics⟩

namespace FileAccess

variable {World : Type} (files : FileAccess (StateM World))

theorem Outcome.ofCompilation_map {Dictionary Other : Type} (change : Dictionary → Other)
    (file : String) (compilation : Compilation Dictionary) :
    (Outcome.ofCompilation file compilation).map change =
      .ofCompilation file { compilation with dictionary := change compilation.dictionary } := by
  unfold Outcome.ofCompilation Outcome.map
  cases compilation.failedAfter <;> rfl

/-- Fetching a file does not depend on how it is compiled. -/
theorem run_compileFile_map {Dictionary Other : Type} (change : Dictionary → Other)
    (kind : DictionaryKind) (name : String) (world : World)
    {compile : String → Script → Compilation Dictionary}
    {other : String → Script → Compilation Other}
    (changed : ∀ script, other name script =
      { compile name script with dictionary := change (compile name script).dictionary }) :
    (files.compileFile kind name other).run world =
      (((files.compileFile kind name compile).run world).1.map change,
        ((files.compileFile kind name compile).run world).2) := by
  rw [compileFile, compileFile, StateT.run_bind, StateT.run_bind]
  rcases (files.fetch name).run world with ⟨error | bytes | _, after⟩
  · rfl
  · have compiled := Outcome.ofCompilation_map change name
      (compile name (.ofLines (PhysicalLine.linesOfBytes bytes)))
    rw [← changed] at compiled
    exact congrArg (·, after) compiled.symm
  · rfl

/-- Erasing the roots before some files are compiled without roots comes to the same as erasing them
after they are compiled. -/
theorem run_compileActorsFrom_withoutRoots (keepRoots : Bool) (earlier : ActorDictionary)
    (diagnostics : Array Diagnostic) (names : List String) (world : World) :
    (files.compileActorsFrom false earlier.withoutRoots diagnostics names).run world =
      (((files.compileActorsFrom keepRoots earlier diagnostics names).run world).1.map
          ActorDictionary.withoutRoots,
        ((files.compileActorsFrom keepRoots earlier diagnostics names).run world).2) := by
  induction names generalizing earlier diagnostics world with
  | nil => rfl
  | cons name rest inductionHypothesis =>
    have compiled : (files.compileFile .actor name (earlier.withoutRoots.compileInto false)).run
        world = _ :=
      files.run_compileFile_map ActorDictionary.withoutRoots .actor name world
        (earlier.withoutRoots_compileInto keepRoots name)
    rw [compileActorsFrom, compileActorsFrom, StateT.run_bind, StateT.run_bind, compiled]
    rcases (files.compileFile .actor name (earlier.compileInto keepRoots)).run world with
      ⟨⟨failure | actors, reports⟩, after⟩
    · rfl
    · exact inductionHypothesis actors (diagnostics ++ reports) after

/-- Keeping the roots of clusters only adds the roots. Whatever the files are, compiling them
without roots leaves the same diagnostics and fails where compiling them with roots fails, and what
it comes to is the same with the roots erased. If the files can be read, the roots that are kept are
the primary phrases of all groups, in order. -/
theorem roots_only_add (world : World) (names : List String) :
    ∃ kept plain after,
      (files.compileActors true names).run world = (kept, after) ∧
      (files.compileActors false names).run world = (plain, after) ∧
      plain.diagnostics = kept.diagnostics ∧
      plain.result = kept.result.map ActorDictionary.withoutRoots ∧
      ∀ sources : List ActorFile, names = sources.map (·.name) →
        (∀ source ∈ sources, source.IsReadable files world) →
        ∃ whole, kept.result = .ok whole ∧
          whole.clusters.toList.map (·.root) =
            (sources.flatMap (·.script.groups)).map fun group =>
              some (String.ofList group.phrase) := by
  have erased := files.run_compileActorsFrom_withoutRoots true .empty #[] names world
  rw [ActorDictionary.withoutRoots_empty] at erased
  refine ⟨_, _, _, rfl, erased, rfl, rfl, ?_⟩
  rintro sources rfl readable
  obtain ⟨diagnostics, ran⟩ := run_compileActorsFrom_ofGroups true [] #[] readable
  refine ⟨_, congrArg (·.1.result) ran, ?_⟩
  simp [ActorDictionary.ofGroups, ActorGroup.cluster, Function.comp_def]

/-- The last cluster of the first file is completed at its end, that of the second one at the stop
marker. -/
def stoppedFiles : List ActorFile :=
  [⟨"first", "ALICE_ [USA]; since 1900\n+AL_\nBOB_\n".toUTF8⟩,
    ⟨"second", "CAROL [GBR]\n\t[RUS 010101-020202]\n---STOP---\nDAVE [FRA]\n".toUTF8⟩]

theorem stopped_files_rooted :
    (∀ source ∈ stoppedFiles, source.IsReadable ofTable stoppedFiles) ∧
      ∃ whole diagnostics after,
        (ofTable.compileActors true ["first", "second"]).run stoppedFiles =
            (⟨.ok whole, diagnostics⟩, after) ∧
          (ofTable.compileActors false ["first", "second"]).run stoppedFiles =
            (⟨.ok whole.withoutRoots, diagnostics⟩, after) ∧
          whole.clusters.toList.map (·.root) = [some "ALICE_", some "BOB_", some "CAROL"] := by
  have readable : ∀ source ∈ stoppedFiles, source.IsReadable ofTable stoppedFiles := by
    refine List.forall_mem_cons.mpr ⟨?_, List.forall_mem_singleton.mpr ?_⟩
    · exact ⟨rfl, by decide +kernel⟩
    · exact ⟨rfl, by decide +kernel⟩
  obtain ⟨⟨kept, diagnostics⟩, ⟨plain, _⟩, after, ranKept, ranPlain, same, erased, rooted⟩ :=
    roots_only_add ofTable stoppedFiles ["first", "second"]
  obtain ⟨whole, isKept, roots⟩ := rooted stoppedFiles rfl readable
  dsimp only at same erased isKept
  rw [isKept] at erased ranKept
  rw [same, erased] at ranPlain
  refine ⟨readable, whole, diagnostics, after, ranKept, ranPlain, roots.trans ?_⟩
  decide +kernel

end FileAccess

end Codebook
