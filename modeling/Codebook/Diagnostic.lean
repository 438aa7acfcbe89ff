/-
This file names the reasons for which a dictionary line, or one entry of it, is not stored. A bad
line never stops a compilation: it is skipped, and a diagnostic with the line's place in its file
is kept.
-/

import Codebook.Calendar

namespace Codebook

/-- Why a line, or one entry of it, is skipped. -/
inductive Skip
  -- verbs
  | badSynsetName (header : String)
  | emptyMember (synset : String)
  | patternBeforeVerb
  | disjunctivePattern
  | patternWithoutCode
  | patternWithoutVerbMark
  | undefinedSynset (name : String)
  | unclosedForms
  | lineWithoutVerb
  | multiWordWithoutRoot (verb : String)
  | unmarkedForms (verb : String) (forms : List String)
  -- actors
  | actorWithoutPhrase
  | synonymBeforeActor
  | synonymWithoutPhrase
  | restrictionBeforeActor
  | restrictionWithoutBrackets
  | restrictionWithoutCode
  | reversedInterval (dates : String)
  | unknownRestriction (dates : String)
  | badDate (error : DateError)
  -- agents
  | agentWithoutCode
  | badAgentCode (code : String)
  | unclosedPlural
  | agentWithoutPhrase
  | unclosedMarkerName
  | markerWithoutItems
  | unclosedMarker (phrase : String)
  | undefinedMarker (name : String)
deriving DecidableEq, Repr

inductive SkipKind
  | malformedEntry
  | dateError
  | undefinedReference
deriving DecidableEq, Repr

def SkipKind.description : SkipKind → String
  | malformedEntry => "malformed entry"
  | dateError => "date error"
  | undefinedReference => "undefined reference"

namespace Skip

/-- Bad dates and references to what is not defined are kinds of their own. -/
def kind : Skip → SkipKind
  | badDate _ => .dateError
  | undefinedSynset _ | undefinedMarker _ => .undefinedReference
  | _ => .malformedEntry

def message : Skip → String
  | badSynsetName header => s!"bad synset name {Text.quoted header}"
  | emptyMember synset => s!"empty member in synset {synset}"
  | patternBeforeVerb => "pattern appears before any verb"
  | disjunctivePattern => "disjunctive \x7b...\x7d patterns are not supported"
  | patternWithoutCode => "pattern has no [code]"
  | patternWithoutVerbMark => "pattern has no '*' marking the verb"
  | undefinedSynset name => s!"synset {name} has not been defined"
  | unclosedForms => "missing '\x7d' after verb forms"
  | lineWithoutVerb => "verb line has no verb"
  | multiWordWithoutRoot verb => s!"multi-word verb {verb} has no '+' marking its root"
  | unmarkedForms verb forms =>
    "forms " ++ ", ".intercalate forms ++ s!" of multi-word verb {verb} lack a '+' root marker"
  | actorWithoutPhrase => "actor line has no phrase"
  | synonymBeforeActor => "synonym appears before any actor"
  | synonymWithoutPhrase => "synonym line has no phrase"
  | restrictionBeforeActor => "date restriction appears before any actor"
  | restrictionWithoutBrackets => "date restriction is not bracketed"
  | restrictionWithoutCode => "date restriction has no code"
  | reversedInterval dates => s!"interval {dates} ends before it starts"
  | unknownRestriction dates => s!"unrecognised date restriction {Text.quoted dates}"
  | badDate error => error.message
  | agentWithoutCode => "agent line has no [code]"
  | badAgentCode code => s!"bad agent code {Text.quoted code}"
  | unclosedPlural => "missing '\x7d' after plural"
  | agentWithoutPhrase => "agent line has no phrase"
  | unclosedMarkerName => "substitution marker is missing its closing '!'"
  | markerWithoutItems => "substitution marker is missing '='"
  | unclosedMarker phrase => s!"substitution marker in {phrase} is not closed"
  | undefinedMarker name => s!"substitution marker !{name}! has not been defined"

end Skip

/-- A skipped line and its place. -/
structure Diagnostic where
  file : String
  line : Nat
  skip : Skip
deriving DecidableEq, Repr

/-- A diagnostic as one line of text. -/
def Diagnostic.shown (diagnostic : Diagnostic) : String :=
  s!"{diagnostic.file}:{diagnostic.line}: {diagnostic.skip.kind.description}: " ++
    diagnostic.skip.message

end Codebook
