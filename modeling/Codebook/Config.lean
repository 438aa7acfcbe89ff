/-
This file reads the configuration of a run: a TOML document that names the dictionary files and
sets the length bounds for sentences. Fields it does not know are passed over.
-/

import Codebook.Files.Name
import Codebook.Sentences
import Codebook.Toml.Document

namespace Codebook

structure Config where
  verbFile : String
  agentFile : String
  actorFiles : List String
  /-- Whether clusters keep their primary phrase. -/
  keepRoots : Bool
  /-- Whether stories already have one sentence on each line. -/
  onePerLine : Bool
  bounds : LengthBounds
deriving DecidableEq, Repr

/-- Why a text is no configuration. -/
inductive ConfigFault
  /-- It is no TOML document, or a field is missing or has a value of the wrong type. -/
  | unparsable
  /-- No sentence could be kept. -/
  | emptyBounds (bounds : LengthBounds)
deriving DecidableEq, Repr

def ConfigFault.message : ConfigFault → String
  | unparsable => "failed to parse"
  | emptyBounds bounds =>
    s!"segmenter min_length {bounds.min} must be below max_length {bounds.max}"

namespace Config

open Toml (Fields Value)

/-! ### Values by type -/

def text? : Value → Option String
  | .text content => some content
  | _ => none

def boolean? : Value → Option Bool
  | .boolean content => some content
  | _ => none

def texts? : Value → Option (List String)
  | .array items => items.mapM text?
  | _ => none

def length? : Value → Option Nat
  | .integer content => if 0 ≤ content then some content.toNat else none
  | _ => none

/-- A field that must be there. -/
def required {Content : Type} (read : Value → Option Content) (fields : Fields) (name : String) :
    Option Content :=
  (fields.get? name).bind read

/-- A field with a default, which is not a cover for a value of the wrong type. -/
def withDefault {Content : Type} (default : Content) (read : Value → Option Content)
    (fields : Fields) (name : String) : Option Content :=
  match fields.get? name with
  | none => some default
  | some value => read value

/-! ### The configuration -/

/-- Length bounds: a table, or an array with the lower and the upper bound in this order. What is
not given is as in the standard bounds, and a date gives nothing. -/
def bounds? : Value → Option LengthBounds
  | .table _ fields => do
    let min ← withDefault LengthBounds.standard.min length? fields "min_length"
    let max ← withDefault LengthBounds.standard.max length? fields "max_length"
    return ⟨min, max⟩
  | .array [] => some .standard
  | .array [min] => do return { LengthBounds.standard with min := ← length? min }
  | .array (min :: max :: _) => do return ⟨← length? min, ← length? max⟩
  | .dateTime => some .standard
  | _ => none

/-- The configuration with the given fields. -/
def ofFields? (fields : Fields) : Option Config := do
  let verbFile ← required text? fields "verb_file"
  let agentFile ← required text? fields "agent_file"
  let actorFiles ← withDefault [] texts? fields "actor_files"
  let keepRoots ← withDefault false boolean? fields "write_actor_root"
  let onePerLine ← withDefault false boolean? fields "parsed_input"
  let bounds ← withDefault .standard bounds? fields "segmenter"
  return { verbFile, agentFile, actorFiles, keepRoots, onePerLine, bounds }

/-- Reads a configuration. Its lower bound must be below the upper one. -/
def ofText (text : String) : Except ConfigFault Config :=
  match (Toml.fieldsOf? text.toList).bind ofFields? with
  | none => .error .unparsable
  | some config =>
    if config.bounds.max ≤ config.bounds.min then .error (.emptyBounds config.bounds)
    else .ok config

/-- The configuration with its file names taken relative to a folder. -/
def relativeTo (folder : List Char) (config : Config) : Config :=
  let resolve := fun name : String => String.ofList (FileName.resolve folder name.toList)
  { config with
    verbFile := resolve config.verbFile
    agentFile := resolve config.agentFile
    actorFiles := config.actorFiles.map resolve }

end Config

end Codebook
