/-
This file defines the values of a TOML document and how tables grow while a document is read. A
table remembers how it came about, because that decides who may add to it: a table under its own
header may not be named by another header, and one that came about through a dotted key may be
extended by dotted keys only.
-/

namespace Codebook.Toml

/-- How a table came about. -/
inductive Origin
  /-- Written in braces. Nothing may be added to it. -/
  | inline
  /-- Named by a header of its own. -/
  | header
  /-- Named on the way to a longer header. -/
  | implied
  /-- Named on the way to a dotted key. -/
  | dotted
deriving DecidableEq, Repr

/-- A value. Floats and dates carry no content: nothing here asks for it. -/
inductive Value
  | text (content : String)
  | integer (content : Int)
  | float
  | boolean (content : Bool)
  | dateTime
  | array (items : List Value)
  | table (origin : Origin) (fields : List (String × Value))
  /-- An array of tables, one for each `[[header]]`, from first to last. -/
  | tables (items : List Value)
deriving Inhabited

/-- The fields of a table, in the order of the document. -/
abbrev Fields := List (String × Value)

namespace Fields

def get? (fields : Fields) (key : String) : Option Value :=
  (fields.find? fun field => field.1 == key).map (·.2)

/-- Gives a field another value. -/
def replace (fields : Fields) (key : String) (value : Value) : Fields :=
  fields.map fun field => if field.1 == key then (key, value) else field

end Fields

/-- A table while it is being filled. -/
structure Table where
  origin : Origin
  fields : Fields

def Table.value (table : Table) : Value :=
  .table table.origin table.fields

namespace Table

/-- Changes the table at `path`. Missing tables on the way are added, with `dotted` for their
origin if a dotted key leads there and `implied` if a header does. A way through an array of tables
leads to its last one. A dotted key may not lead through a table with a header. -/
def changeAt (dotted : Bool) (change : Table → Option Table) : List String → Table → Option Table
  | [], table => change table
  | key :: path, table =>
    match table.fields.get? key with
    | none => do
      let child ← changeAt dotted change path ⟨if dotted then .dotted else .implied, []⟩
      some { table with fields := table.fields ++ [(key, child.value)] }
    | some (.table origin fields) => do
      if origin = .inline ∨ (dotted ∧ origin = .header) then none
      else
        let child ← changeAt dotted change path ⟨origin, fields⟩
        some { table with fields := Fields.replace table.fields key child.value }
    | some (.tables items) =>
      match items.getLast? with
      | some (.table origin fields) => do
        let child ← changeAt dotted change path ⟨origin, fields⟩
        some { table with
          fields := Fields.replace table.fields key (.tables (items.dropLast ++ [child.value])) }
      | _ => none
    | some _ => none

/-- Adds a field that is not there yet. -/
def addField (key : String) (value : Value) (table : Table) : Option Table :=
  if (table.fields.get? key).isSome then none
  else some { table with fields := table.fields ++ [(key, value)] }

/-- Adds a field under a dotted key. The table it belongs to must have come about through dotted
keys, unless the key has no dot. -/
def addKey (path : List String) (key : String) (value : Value) (table : Table) : Option Table :=
  changeAt true
    (fun target =>
      if path.isEmpty ∨ target.origin = .dotted then target.addField key value else none)
    path table

/-- Opens the table that a header names: a new one, or one so far only implied. -/
def openTable (key : String) (table : Table) : Option Table :=
  match table.fields.get? key with
  | none => some { table with fields := table.fields ++ [(key, .table .header [])] }
  | some (.table .implied fields) =>
    some { table with fields := Fields.replace table.fields key (.table .header fields) }
  | some _ => none

/-- Opens one more table of an array of tables. -/
def openNext (key : String) (table : Table) : Option Table :=
  match table.fields.get? key with
  | none => some { table with fields := table.fields ++ [(key, .tables [.table .header []])] }
  | some (.tables items) =>
    some { table with
      fields := Fields.replace table.fields key (.tables (items ++ [.table .header []])) }
  | some _ => none

end Table

end Codebook.Toml
