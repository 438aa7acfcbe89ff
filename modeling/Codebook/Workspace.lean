/-
This file does with files what the other files do with texts: it reads configurations, compiles
dictionaries, and keeps snapshots. It works over any access to files.
-/

import Codebook.Actors.Compile
import Codebook.Agents.Compile
import Codebook.Config
import Codebook.Files.Error
import Codebook.Snapshot.Format
import Codebook.Verbs.Compile

namespace Codebook

/-! ### Failures -/

inductive DictionaryKind
  | verb
  | actor
  | agent
deriving DecidableEq, Repr

def DictionaryKind.name : DictionaryKind → String
  | verb => "verb"
  | actor => "actor"
  | agent => "agent"

/-- What stops a compilation, or the use of a configuration or a snapshot, altogether. -/
inductive Failure
  | cannotOpen (kind : DictionaryKind) (file : String) (error : FileError)
  /-- Reading stopped after so many lines. -/
  | cannotRead (file : String) (line : Nat) (error : FileError)
  | cannotReadConfig (file : String) (error : FileError)
  | badConfig (file : String) (fault : ConfigFault)
  | badSnapshot
  /-- The snapshot announces more than there can be room for. -/
  | hugeSnapshot
  | unknownVersion (version : Nat)
  | noAccess (error : FileError)
deriving DecidableEq, Repr

namespace Failure

def message : Failure → String
  | cannotOpen kind file error => s!"could not open the {kind.name} file {file}: {error.message}"
  | cannotRead file line error => s!"read failed in {file} after line {line}: {error.message}"
  | cannotReadConfig file error => s!"invalid configuration {file}: failed to read: {error.message}"
  | badConfig file fault => s!"invalid configuration {file}: {fault.message}"
  | badSnapshot => "snapshot encoding failed"
  | hugeSnapshot => "snapshot does not fit into memory"
  | unknownVersion version => s!"snapshot version {version} is not supported"
  | noAccess error => error.message

/-- The failure to read a snapshot. -/
def ofSnapshotFault : SnapshotFault → Failure
  | .unreadable .malformed => badSnapshot
  | .unreadable .noRoom => hugeSnapshot
  | .unknownVersion version => unknownVersion version

end Failure

namespace FileAccess

variable {m : Type → Type} [Monad m]

/-! ### Configurations and snapshots -/

/-- Reads a configuration. File names in it are taken relative to the folder it lies in. -/
def readConfig (files : FileAccess m) (name : String) : m (Except Failure Config) := do
  match (← files.fetch name).bind Contents.text with
  | .error error => return .error (.cannotReadConfig name error)
  | .ok text =>
    match Config.ofText text with
    | .error fault => return .error (.badConfig name fault)
    | .ok config =>
      match FileName.parent? name.toList with
      | none => return .ok config
      | some folder => return .ok (config.relativeTo folder)

def saveSnapshot (files : FileAccess m) (lexicon : Lexicon) (name : String) :
    m (Except Failure Unit) := do
  return (← files.replace name ⟨(Snapshot.write lexicon).toArray⟩).mapError .noAccess

/-- Reads a snapshot. What can be opened but not read is no snapshot. -/
def loadSnapshot (files : FileAccess m) (name : String) : m (Except Failure Lexicon) := do
  match ← files.fetch name with
  | .error error => return .error (.noAccess error)
  | .ok .folder => return .error .badSnapshot
  | .ok (.file bytes) => return (Snapshot.read bytes.data.toList).mapError .ofSnapshotFault

def readStory (files : FileAccess m) (name : String) : m (Except Failure String) := do
  return ((← files.fetch name).bind Contents.text).mapError .noAccess

/-! ### Dictionaries -/

/-- A dictionary, or the failure that stopped its compilation, and the diagnostics until then. -/
structure Outcome (Dictionary : Type) where
  result : Except Failure Dictionary
  diagnostics : Array Diagnostic

/-- The outcome of a compilation: it fails if a line could not be decoded. -/
def Outcome.ofCompilation {Dictionary : Type} (file : String)
    (compilation : Compilation Dictionary) : Outcome Dictionary where
  result := match compilation.failedAfter with
    | none => .ok compilation.dictionary
    | some line => .error (.cannotRead file line .notText)
  diagnostics := compilation.diagnostics

/-- Compiles the dictionary file of the given kind and name. -/
def compileFile {Dictionary : Type} (files : FileAccess m) (kind : DictionaryKind) (name : String)
    (compile : String → Script → Compilation Dictionary) : m (Outcome Dictionary) := do
  match ← files.fetch name with
  | .error error => return ⟨.error (.cannotOpen kind name error), #[]⟩
  | .ok contents =>
    match contents.bytes with
    | .error error => return ⟨.error (.cannotRead name 0 error), #[]⟩
    | .ok bytes =>
      let script := Script.ofLines (PhysicalLine.linesOfBytes bytes)
      return .ofCompilation name (compile name script)

def compileVerbs (files : FileAccess m) (name : String) : m (Outcome VerbDictionary) :=
  files.compileFile .verb name VerbDictionary.compile

/-- Compiles actor files behind what has been compiled before; the first failure ends it. -/
def compileActorsFrom (files : FileAccess m) (keepRoots : Bool) (earlier : ActorDictionary)
    (diagnostics : Array Diagnostic) : List String → m (Outcome ActorDictionary)
  | [] => return ⟨.ok earlier, diagnostics⟩
  | name :: rest => do
    let outcome ← files.compileFile .actor name (earlier.compileInto keepRoots)
    match outcome.result with
    | .error failure => return ⟨.error failure, diagnostics ++ outcome.diagnostics⟩
    | .ok actors =>
      files.compileActorsFrom keepRoots actors (diagnostics ++ outcome.diagnostics) rest

def compileActors (files : FileAccess m) (keepRoots : Bool) (names : List String) :
    m (Outcome ActorDictionary) :=
  files.compileActorsFrom keepRoots .empty #[] names

def compileAgents (files : FileAccess m) (name : String) : m (Outcome AgentDictionary) :=
  files.compileFile .agent name AgentDictionary.compile

/-- Compiles the three dictionaries of a configuration, verbs first and agents last. -/
def compileAll (files : FileAccess m) (config : Config) : m (Outcome Lexicon) := do
  let verbs ← files.compileVerbs config.verbFile
  match verbs.result with
  | .error failure => return ⟨.error failure, verbs.diagnostics⟩
  | .ok verbDictionary =>
    let actors ← files.compileActors config.keepRoots config.actorFiles
    match actors.result with
    | .error failure => return ⟨.error failure, verbs.diagnostics ++ actors.diagnostics⟩
    | .ok actorDictionary =>
      let agents ← files.compileAgents config.agentFile
      let diagnostics := verbs.diagnostics ++ actors.diagnostics ++ agents.diagnostics
      return {
        result := agents.result.map fun agentDictionary =>
          ⟨verbDictionary, actorDictionary, agentDictionary, diagnostics⟩
        diagnostics }

end FileAccess

end Codebook
