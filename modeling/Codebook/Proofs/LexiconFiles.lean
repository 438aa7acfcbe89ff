/-
This file says that the files of a lexicon are compiled independently. What a configuration comes to
is what its verb file, its actor files and its agent file each come to by themselves, and the
diagnostics stand in the order of the files. Within a file they stand in the order of its lines, at
most one for each, and they bear the numbers of physical lines of that file. Main statement: this
holds for all files that can be read (`FileAccess.exists_assembles`).
-/

import Codebook.Proofs.ActorFiles
import Codebook.Proofs.LinesInOrder

namespace Codebook

/-! ### The diagnostics of a file -/

/-- Diagnostics of one file: they name it, and their numbers are those of some of its cleaned lines,
one diagnostic for each, in order. -/
structure ReportedInOrder (file : String) (bytes : ByteArray) (diagnostics : List Diagnostic) :
    Prop where
  named : ∀ diagnostic ∈ diagnostics, diagnostic.file = file
  perLine : (diagnostics.map (·.line)).Sublist
    ((Script.ofLines (PhysicalLine.linesOfBytes bytes)).lines.map (·.number))
  ascend : (diagnostics.map (·.line)).Pairwise (· < ·)
  inRange : ∀ diagnostic ∈ diagnostics,
    1 ≤ diagnostic.line ∧ diagnostic.line ≤ (PhysicalLine.linesOfBytes bytes).length

/-- Lines that are handled one after the other report in order. -/
theorem reportedInOrder_handleLines {State : Type} (handle : State → Line → State × Option Skip)
    (file : String) (start : State) (bytes : ByteArray) {lines : List Line}
    (someLines : lines.Sublist (Script.ofLines (PhysicalLine.linesOfBytes bytes)).lines) :
    ReportedInOrder file bytes (handleLines handle file start lines).2.toList := by
  have perLine := (lineOf_handleLines_sublist handle file start lines).trans (someLines.map _)
  refine ⟨fileOf_handleLines handle file start lines, perLine, ?_, ?_⟩
  · exact (Script.numbers_ascend _).sublist perLine
  · intro diagnostic member
    obtain ⟨line, isCleaned, same⟩ :=
      List.mem_map.mp (perLine.subset (List.mem_map_of_mem member))
    rw [← same]
    exact Script.number_inRange isCleaned

theorem VerbDictionary.reportedInOrder (file : String) (bytes : ByteArray) :
    ReportedInOrder file bytes
      (compile file (.ofLines (PhysicalLine.linesOfBytes bytes))).diagnostics.toList :=
  reportedInOrder_handleLines VerbState.handle file .start bytes (List.Sublist.refl _)

theorem AgentDictionary.reportedInOrder (file : String) (bytes : ByteArray) :
    ReportedInOrder file bytes
      (compile file (.ofLines (PhysicalLine.linesOfBytes bytes))).diagnostics.toList :=
  reportedInOrder_handleLines AgentState.handle file .start bytes (List.Sublist.refl _)

/-- The lines behind a stop marker have no diagnostics. -/
theorem ActorFile.reportedInOrder (keepRoots : Bool) (source : ActorFile) :
    ReportedInOrder source.name source.bytes (source.alone keepRoots).diagnostics.toList := by
  refine reportedInOrder_handleLines (ActorState.handle keepRoots) source.name _ source.bytes ?_
  rw [Script.lines_untilStop_eq]
  exact List.takeWhile_sublist _

/-! ### Configurations -/

namespace FileAccess

variable {World : Type} (files : FileAccess (StateM World)) (world : World)

/-- A file can be read to its end: it is there, and all its lines are texts. -/
structure ReadsWhole (name : String) (bytes : ByteArray) : Prop where
  fetched : (files.fetch name).run world = (.ok (.file bytes), world)
  decodable : (Script.ofLines (PhysicalLine.linesOfBytes bytes)).failedAfter = none

/-- The files of a configuration can be read. Of an actor file only the lines up to a stop marker
have to be texts. -/
structure CanRead (config : Config) (verbs : ByteArray) (actors : List ActorFile)
    (agents : ByteArray) : Prop where
  verbs : files.ReadsWhole world config.verbFile verbs
  actorFiles : config.actorFiles = actors.map (·.name)
  actors : ∀ source ∈ actors, source.IsReadable files world
  agents : files.ReadsWhole world config.agentFile agents

/-- A lexicon is put together from what the files of a configuration come to alone. The diagnostics
of the three kinds of files are given. -/
structure Assembles (config : Config) (verbs : ByteArray) (actors : List ActorFile)
    (agents : ByteArray) (lexicon : Lexicon) (ofVerbs ofActors ofAgents : Array Diagnostic) :
    Prop where
  ran : (files.compileAll config).run world = (⟨.ok lexicon, lexicon.diagnostics⟩, world)
  fromVerbs : (files.compileVerbs config.verbFile).run world =
    (⟨.ok lexicon.verbs, ofVerbs⟩, world)
  fromActors : (files.compileActors config.keepRoots config.actorFiles).run world =
    (⟨.ok lexicon.actors, ofActors⟩, world)
  fromActor : ∀ source ∈ actors,
    (files.compileActors config.keepRoots [source.name]).run world =
      (⟨.ok (source.alone config.keepRoots).dictionary,
        (source.alone config.keepRoots).diagnostics⟩, world)
  fromAgents : (files.compileAgents config.agentFile).run world =
    (⟨.ok lexicon.agents, ofAgents⟩, world)
  diagnostics : lexicon.diagnostics = ofVerbs ++ ofActors ++ ofAgents
  actorDiagnostics : ofActors.toList =
    actors.flatMap fun source => (source.alone config.keepRoots).diagnostics.toList
  verbsInOrder : ReportedInOrder config.verbFile verbs ofVerbs.toList
  actorsInOrder : ∀ source ∈ actors,
    ReportedInOrder source.name source.bytes (source.alone config.keepRoots).diagnostics.toList
  agentsInOrder : ReportedInOrder config.agentFile agents ofAgents.toList

variable {files world}

theorem ReadsWhole.isReadable {name : String} {bytes : ByteArray}
    (reads : files.ReadsWhole world name bytes) :
    ActorFile.IsReadable files world ⟨name, bytes⟩ where
  fetched := reads.fetched
  decodable := Script.failedAfter_untilStop_eq_none reads.decodable

/-- A file that can be read to its end is compiled. -/
theorem ReadsWhole.run_compileFile {name : String} {bytes : ByteArray}
    (reads : files.ReadsWhole world name bytes) {Dictionary : Type} (kind : DictionaryKind)
    (compile : String → Script → Compilation Dictionary)
    (complete : ∀ script, (compile name script).failedAfter = script.failedAfter) :
    (files.compileFile kind name compile).run world =
      (⟨.ok (compile name (.ofLines (PhysicalLine.linesOfBytes bytes))).dictionary,
        (compile name (.ofLines (PhysicalLine.linesOfBytes bytes))).diagnostics⟩, world) := by
  have decoded : (compile name (ActorFile.script ⟨name, bytes⟩)).failedAfter = none :=
    (complete _).trans reads.decodable
  rw [reads.isReadable.run_compileFile kind compile]
  simp only [Outcome.ofCompilation, decoded]
  rfl

/-- Three dictionaries that are compiled one after the other make up the lexicon. -/
theorem run_compileAll {config : Config} {verbs : VerbDictionary} {actors : ActorDictionary}
    {agents : AgentDictionary} {ofVerbs ofActors ofAgents : Array Diagnostic}
    (ranVerbs : (files.compileVerbs config.verbFile).run world = (⟨.ok verbs, ofVerbs⟩, world))
    (ranActors : (files.compileActors config.keepRoots config.actorFiles).run world =
      (⟨.ok actors, ofActors⟩, world))
    (ranAgents : (files.compileAgents config.agentFile).run world =
      (⟨.ok agents, ofAgents⟩, world)) :
    (files.compileAll config).run world =
      (⟨.ok ⟨verbs, actors, agents, ofVerbs ++ ofActors ++ ofAgents⟩,
        ofVerbs ++ ofActors ++ ofAgents⟩, world) := by
  rw [compileAll, StateT.run_bind, ranVerbs]
  show (files.compileActors config.keepRoots config.actorFiles >>= _).run world = _
  rw [StateT.run_bind, ranActors]
  show (files.compileAgents config.agentFile >>= _).run world = _
  rw [StateT.run_bind, ranAgents]
  rfl

/-- Every configuration whose files can be read comes to a lexicon, which is put together from what
each of the files comes to alone. -/
theorem exists_assembles {config : Config} {verbs agents : ByteArray} {actors : List ActorFile}
    (canRead : files.CanRead world config verbs actors agents) :
    ∃ lexicon ofVerbs ofActors ofAgents,
      files.Assembles world config verbs actors agents lexicon ofVerbs ofActors ofAgents := by
  have ranVerbs := canRead.verbs.run_compileFile .verb VerbDictionary.compile fun _ => rfl
  have ranAgents := canRead.agents.run_compileFile .agent AgentDictionary.compile fun _ => rfl
  obtain ⟨whole, ofActors, gathers⟩ := exists_gathers config.keepRoots canRead.actors
  have ranActors := gathers.ran
  rw [← canRead.actorFiles] at ranActors
  exact ⟨_, _, ofActors, _, {
    ran := run_compileAll ranVerbs ranActors ranAgents
    fromVerbs := ranVerbs
    fromActors := ranActors
    fromActor := fun source member =>
      run_compileActors_single config.keepRoots (canRead.actors source member)
    fromAgents := ranAgents
    diagnostics := rfl
    actorDiagnostics := gathers.reported
    verbsInOrder := VerbDictionary.reportedInOrder config.verbFile verbs
    actorsInOrder := fun source _ => source.reportedInOrder config.keepRoots
    agentsInOrder := AgentDictionary.reportedInOrder config.agentFile agents }⟩

/-- The bytes of a verb file with a pattern that has no code. -/
def verbBytes : ByteArray := "RUN [010]\n- * ORDER\n".toUTF8

/-- The bytes of an agent file with a phrase that has no code. -/
def agentBytes : ByteArray := "# roles\nPRESIDENT\nPOLICE [~COP]\n".toUTF8

/-- A table with a verb file, two actor files and an agent file. -/
def fourFiles : List ActorFile :=
  [⟨"verbs", verbBytes⟩, ⟨"agents", agentBytes⟩] ++ twoFiles

def fourFilesConfig : Config where
  verbFile := "verbs"
  agentFile := "agents"
  actorFiles := ["first", "second"]
  keepRoots := true
  onePerLine := false
  bounds := .standard

theorem four_files_assemble :
    CanRead ofTable fourFiles fourFilesConfig verbBytes twoFiles agentBytes ∧
      ∃ lexicon ofVerbs ofActors ofAgents,
        Assembles ofTable fourFiles fourFilesConfig verbBytes twoFiles agentBytes lexicon ofVerbs
          ofActors ofAgents ∧
        lexicon.diagnostics.toList.map (fun diagnostic => (diagnostic.file, diagnostic.line)) =
          [("verbs", 2), ("second", 1), ("agents", 2)] := by
  have canRead : CanRead ofTable fourFiles fourFilesConfig verbBytes twoFiles agentBytes := by
    refine ⟨⟨rfl, by decide +kernel⟩, rfl, ?_, ⟨rfl, by decide +kernel⟩⟩
    refine List.forall_mem_cons.mpr ⟨?_, List.forall_mem_singleton.mpr ?_⟩
    · exact ⟨rfl, by decide +kernel⟩
    · exact ⟨rfl, by decide +kernel⟩
  obtain ⟨lexicon, ofVerbs, ofActors, ofAgents, assembles⟩ := exists_assembles canRead
  refine ⟨canRead, lexicon, ofVerbs, ofActors, ofAgents, assembles, ?_⟩
  have same : ((ofTable.compileAll fourFilesConfig).run fourFiles).1.diagnostics =
      lexicon.diagnostics := by
    rw [assembles.ran]
  rw [← same]
  decide +kernel

end FileAccess

end Codebook
