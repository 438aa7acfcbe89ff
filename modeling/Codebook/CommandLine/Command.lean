/-
This file defines the commands of the command line and reads them from its arguments.
-/

import Codebook.CommandLine.Arguments
import Codebook.Report.Dump

namespace Codebook.CommandLine

/-- What the command line is asked to do. -/
inductive Command
  /-- Compile the dictionaries of a configuration, and write a snapshot of them. -/
  | compile (config : String) (out : Option String)
  /-- List a dictionary of a snapshot. -/
  | dump (snapshot : String) (section_ : Report.Section)
  /-- Split a story into sentences, one to a line. -/
  | segment (config : Option String) (onePerLine : Bool) (file : String)
  /-- Convert dates to ordinals. -/
  | ordinal (dates : List String)
deriving DecidableEq, Repr

/-- An option whose value is the name of a file, and whose short form is its first letter. -/
def fileOption (name : String) : OptionRule :=
  ⟨name, name.toList.head?, true⟩

/-- A file must have a name. -/
def isFileName (operand : String) : Bool :=
  !operand.isEmpty

def readCompile (arguments : List String) : Except Refusal Command := do
  let rules := ⟨[fileOption "config", fileOption "out"], some 0, fun _ => false⟩
  let sorted ← sort rules none ⟨[], []⟩ arguments
  let some config := sorted.value? "config" | throw .usage
  return .compile config (sorted.value? "out")

/-- Reads the arguments of `dump`. Verbs are listed unless another dictionary is named. -/
def readDump (arguments : List String) : Except Refusal Command := do
  let rules := ⟨[fileOption "snapshot"], some 1, fun name => (Report.Section.ofName? name).isSome⟩
  let sorted ← sort rules none ⟨[], []⟩ arguments
  let some snapshot := sorted.value? "snapshot" | throw .usage
  return .dump snapshot ((sorted.operands.head?.bind Report.Section.ofName?).getD .verbs)

def readSegment (arguments : List String) : Except Refusal Command := do
  let rules := ⟨[fileOption "config", ⟨"parsed", none, false⟩], some 1, isFileName⟩
  let sorted ← sort rules none ⟨[], []⟩ arguments
  let some file := sorted.operands.head? | throw .usage
  return .segment (sorted.value? "config") (sorted.value? "parsed").isSome file

/-- Reads the arguments of `ordinal`, of which there must be one at least. -/
def readOrdinal (arguments : List String) : Except Refusal Command := do
  let sorted ← sort ⟨[], none, fun _ => true⟩ none ⟨[], []⟩ arguments
  if sorted.operands.isEmpty then throw .usage
  return .ordinal sorted.operands

def readers : List (String × (List String → Except Refusal Command)) :=
  [("compile", readCompile), ("dump", readDump), ("segment", readSegment),
    ("ordinal", readOrdinal)]

/-- A request for help names at most commands. -/
def refuseHelp (arguments : List String) : Refusal :=
  match arguments with
  | [] => .information
  | [name] =>
    if name = "help" ∨ (readers.any fun reader => reader.1 == name) then .information else .usage
  | _ => .usage

/-- Whether an argument in front of any command asks for the help text or the version. Of a row of
letters the first decides. -/
def asksForInformation (argument : String) : Bool :=
  match argument.toList with
  | '-' :: letter :: _ =>
    letter == 'h' || letter == 'V' || argument == "--help" || argument == "--version"
  | _ => false

/-- Reads the command line: the name of a command and its arguments. -/
def Command.read (arguments : List String) : Except Refusal Command :=
  match arguments with
  | [] => .error .usage
  | name :: rest =>
    if asksForInformation name then .error .information
    else if name = "help" then .error (refuseHelp rest)
    else match readers.find? fun reader => reader.1 == name with
      | some (_, reader) => reader rest
      | none => .error .usage

end Codebook.CommandLine
