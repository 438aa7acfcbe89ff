/-
This file reads TOML documents. A document is a row of lines, each a key with its value, a header
or neither; the tables grow line by line. Nothing is said about why a text is no document.
-/

import Codebook.Toml.Scalar

namespace Codebook.Toml

open Reader

/-! ### Keys -/

/-- The characters of keys without quotes. -/
def isKeyChar (c : Char) : Bool :=
  c.isAlphanum || c == '-' || c == '_'

def keyPart : Reader String :=
  String.ofList <$> (basicString <|> literalString <|> check (!·.isEmpty) (takeWhile isKeyChar))

/-- How deep values may be nested, and how many parts a key may have, is below this. -/
def depthLimit : Nat := 80

/-- A key, as the parts before its last dot and the part behind it. -/
def key : Reader (List String × String) := do
  let part := blanks *> keyPart <* blanks
  let first ← part
  let others ← many (char '.' *> part)
  let parts := first :: others
  if depthLimit ≤ parts.length then failure
  return (parts.dropLast, others.getLast?.getD first)

/-! ### Values -/

/-- The blanks, line ends and comments between the items of an array. -/
def filling : Reader Unit :=
  discard (many (discard (satisfy isBlankChar) <|> lineEnd <|> comment))

/-- An array, given how its items are read. -/
def arrayOf (item : Reader Value) : Reader Value := do
  let spaced := filling *> item <* filling
  char '['
  let items ← optional? do
    let first ← spaced
    let others ← many (char ',' *> spaced)
    discard (optional? (char ','))
    return first :: others
  filling
  char ']'
  return .array (items.getD [])

/-- A key and its value, given how values are read. -/
def fieldOf (value : Reader Value) : Reader ((List String × String) × Value) := do
  let name ← key
  char '='
  let content ← blanks *> value
  return (name, content)

/-- A table in braces, given how the values of its fields are read. -/
def tableOf (value : Reader Value) : Reader Value := do
  let field := fieldOf value <* blanks
  char '\x7b'
  let fields ← optional? do
    let first ← field
    let others ← many (char ',' *> field)
    return first :: others
  blanks
  char '\x7d'
  let add := fun (table : Table) (field : (List String × String) × Value) =>
    table.addKey field.1.1 field.1.2 field.2
  let table ← monadLift ((fields.getD []).foldlM add ⟨.inline, []⟩ : Option Table)
  return table.value

/-- A value in which arrays and tables are nested at most `levels` deep. -/
def value : Nat → Reader Value
  | 0 => scalar
  | levels + 1 => scalar <|> arrayOf (value levels) <|> tableOf (value levels)

/-! ### Documents -/

inductive Entry
  | field (path : List String) (key : String) (value : Value)
  | header (path : List String) (key : String)
  | nextHeader (path : List String) (key : String)
  | idle

/-- What may follow an entry on its line. -/
def restOfLine : Reader Unit := do
  blanks
  discard (optional? comment)
  lineEnd <|> atEnd

def nextHeader : Reader Entry := do
  exact ['[', '[']
  let (path, name) ← key
  exact [']', ']']
  return .nextHeader path name

def header : Reader Entry := do
  char '['
  let (path, name) ← key
  char ']'
  return .header path name

def field : Reader Entry := do
  let ((path, name), content) ← fieldOf (value (depthLimit - 1))
  return .field path name content

/-- A line. The last one may lack its line end. -/
def entry : Reader Entry := do
  ahead (!·.isEmpty)
  blanks
  let read ← nextHeader <|> header <|> field <|> pure .idle
  restOfLine
  return read

/-- The lines of a document, which may start with a byte order mark. -/
def entries : Reader (List Entry) := do
  discard (optional? (char '﻿'))
  let read ← many entry
  atEnd
  return read

/-- A document while it is being read, and the header under which the next fields come. -/
structure Draft where
  root : Table
  current : List String

/-- Takes in one line. -/
def Draft.add (draft : Draft) : Entry → Option Draft
  | .idle => some draft
  | .field path key value => do
    let root ← draft.root.changeAt false (Table.addKey path key value) draft.current
    some { draft with root }
  | .header path key => do
    let root ← draft.root.changeAt false (Table.openTable key) path
    some ⟨root, path ++ [key]⟩
  | .nextHeader path key => do
    let root ← draft.root.changeAt false (Table.openNext key) path
    some ⟨root, path ++ [key]⟩

def fieldsOf? (text : List Char) : Option Fields := do
  let (read, _) ← entries.run text
  let draft ← read.foldlM Draft.add ⟨⟨.header, []⟩, []⟩
  some draft.root.fields

end Codebook.Toml
