/-
This file words the reports of the command line: the summary of a compilation, and messages about
errors. Some words are set off by terminal styles.
-/

import Codebook.Diagnostic
import Codebook.Lexicon

namespace Codebook.Report

/-- A terminal control sequence. -/
def control (parameters : String) : String :=
  "\x1b[" ++ parameters ++ "m"

/-- Text in bold. -/
def bold (text : String) : String :=
  control "1" ++ text ++ control "0"

/-- Text in one of the numbered colours. -/
def colored (colour : String) (text : String) : String :=
  control ("38;5;" ++ colour) ++ text ++ control "39"

/-- Lines of text, each with its line end. -/
def unlines (lines : List String) : String :=
  String.join (lines.map fun line => line ++ "\n")

/-- An error as a line of its own, behind a red and bold mark. -/
def errorLine (message : String) : String :=
  unlines [control "38;5;9" ++ bold "error:" ++ " " ++ message]

/-- What has been compiled, and the lines that were skipped. -/
def summary (lexicon : Lexicon) : String :=
  let verbs := lexicon.verbs
  let diagnostics := lexicon.diagnostics.toList
  let counts :=
    [bold "Compiled lexicon",
      s!"  verbs   {verbs.forms.size} forms, {verbs.patterns.size} patterns, " ++
        s!"{verbs.synsetNames.size} synsets",
      s!"  actors  {lexicon.actors.phrases.size} phrases in " ++
        s!"{lexicon.actors.clusters.size} clusters",
      s!"  agents  {lexicon.agents.phrases.size} phrases"]
  let skipped :=
    if diagnostics.isEmpty then [colored "10" "No lines skipped."]
    else
      colored "11" s!"{diagnostics.length} lines skipped:" ::
        diagnostics.map fun diagnostic => "  " ++ diagnostic.shown
  unlines (counts ++ skipped)

end Codebook.Report
