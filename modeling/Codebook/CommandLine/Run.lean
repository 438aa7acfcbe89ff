/-
This file carries out commands. What a command prints and how it exits is a value; only the files it
reads and writes are reached through the access given to it.
-/

import Codebook.CommandLine.Command
import Codebook.Report.Summary
import Codebook.Workspace

namespace Codebook.CommandLine

/-- What a command leaves on the terminal, and its exit code. -/
structure Effect where
  code : Nat
  output : String
  errors : String
deriving DecidableEq, Repr

namespace Effect

/-- A command that went well. -/
def success (output : String) : Effect :=
  ⟨0, output, ""⟩

/-- A command that failed after it had printed `output`. -/
def failed (output : String) (failure : Failure) : Effect :=
  ⟨1, output, Report.errorLine failure.message⟩

/-- A command that had to be given up: on the way it met with what it cannot handle. -/
def aborted : Effect :=
  ⟨101, "", ""⟩

/-- Arguments that are no command. The texts that explain them are not part of this. -/
def refused : Refusal → Effect
  | .information => ⟨0, "", ""⟩
  | .usage => ⟨2, "", ""⟩

end Effect

/-- Dates as ordinals, each behind its date; those that are none are reported as errors. -/
def ordinals (dates : List String) : Effect :=
  let results := dates.map fun date => (date, ordinalOfText date)
  let lines := results.filterMap fun (date, result) =>
    result.toOption.map fun ordinal => s!"{date}\t{ordinal}"
  let errors := results.filterMap fun (_, result) =>
    match result with
    | .ok _ => none
    | .error error => some (Report.errorLine error.message)
  ⟨if errors.isEmpty then 0 else 1, Report.unlines lines, String.join errors⟩

/-- Sentences, one to a line and without the white space around them. -/
def sentenceLines (sentences : List (List Char)) : String :=
  Report.unlines (sentences.map fun sentence => String.ofList (Text.trim sentence))

variable {m : Type → Type} [Monad m]

/-- Compiles the dictionaries of a configuration. -/
def runCompile (files : FileAccess m) (configFile : String) (out : Option String) : m Effect := do
  match ← files.readConfig configFile with
  | .error failure => return .failed "" failure
  | .ok config =>
    let outcome ← files.compileAll config
    match outcome.result with
    | .error failure => return .failed "" failure
    | .ok lexicon =>
      let summary := Report.summary lexicon
      match out with
      | none => return .success summary
      | some name =>
        match ← files.saveSnapshot lexicon name with
        | .error failure => return .failed summary failure
        | .ok () => return .success (summary ++ s!"Snapshot written to '{name}'\n")

/-- Lists a dictionary of a snapshot, unless there is no room for it or it cannot be listed. -/
def runDump (files : FileAccess m) (snapshot : String) (section_ : Report.Section) : m Effect := do
  match ← files.loadSnapshot snapshot with
  | .error .hugeSnapshot => return .aborted
  | .error failure => return .failed "" failure
  | .ok lexicon =>
    if Report.isListable lexicon section_ then
      return .success ((Report.dump lexicon section_).shown ++ "\n")
    else return .aborted

/-- Splits a story. Either the arguments or the configuration may say that it has one sentence on
each line. -/
def splitStory (files : FileAccess m) (bounds : LengthBounds) (onePerLine : Bool) (file : String) :
    m Effect := do
  match ← files.readStory file with
  | .error failure => return .failed "" failure
  | .ok story =>
    match Sentences.ofInput bounds onePerLine story.toList with
    | .error _ => return .aborted
    | .ok sentences => return .success (sentenceLines sentences)

/-- Splits a story as a configuration asks, or with the standard bounds. -/
def runSegment (files : FileAccess m) (configFile : Option String) (onePerLine : Bool)
    (file : String) : m Effect := do
  match configFile with
  | none => splitStory files .standard onePerLine file
  | some name =>
    match ← files.readConfig name with
    | .error failure => return .failed "" failure
    | .ok config => splitStory files config.bounds (onePerLine || config.onePerLine) file

def Command.run (files : FileAccess m) : Command → m Effect
  | .compile config out => runCompile files config out
  | .dump snapshot section_ => runDump files snapshot section_
  | .segment config onePerLine file => runSegment files config onePerLine file
  | .ordinal dates => return ordinals dates

def run (files : FileAccess m) (arguments : List String) : m Effect :=
  match Command.read arguments with
  | .error refusal => return .refused refusal
  | .ok command => command.run files

end Codebook.CommandLine
