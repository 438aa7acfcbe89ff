/-
This file prints JSON values for people to read: two blanks of indentation for every level, one
item to a line, and all characters as they are but for quotes, backslashes and controls.
-/

import Codebook.Text.Quoted

namespace Codebook.Report

/-- A JSON value. The fields of an object are printed in the order in which they are given. -/
inductive Json
  | null
  | number (value : Int)
  | text (content : String)
  | array (items : List Json)
  | object (fields : List (String × Json))
deriving Inhabited

namespace Json

/-- A text as a JSON string. -/
def ofText? : Option String → Json
  | none => null
  | some content => text content

/-- How one character is written in a JSON string. -/
def escapeChar (c : Char) : List Char :=
  match c with
  | '"' => ['\\', '"']
  | '\\' => ['\\', '\\']
  | '\n' => ['\\', 'n']
  | '\r' => ['\\', 'r']
  | '\t' => ['\\', 't']
  | '\x08' => ['\\', 'b']
  | '\x0c' => ['\\', 'f']
  | _ =>
    if c.toNat < 0x20 then
      ['\\', 'u', '0', '0'] ++
        [Nat.digitChar (c.toNat / 16), Nat.digitChar (c.toNat % 16)]
    else [c]

/-- A text as it is written in JSON. -/
def shownText (content : String) : String :=
  String.ofList ('"' :: content.toList.flatMap escapeChar ++ ['"'])

/-- A line break and the indentation of a level. -/
def breakAt (level : Nat) : String :=
  "\n" ++ String.ofList (List.replicate (2 * level) ' ')

/-- Items between brackets, one to a line; without items the brackets stand together. -/
def block (opening closing : String) (level : Nat) (items : List String) : String :=
  if items.isEmpty then opening ++ closing
  else
    opening ++ breakAt (level + 1) ++ ("," ++ breakAt (level + 1)).intercalate items ++
      breakAt level ++ closing

mutual

/-- A value as it is printed at a level of indentation. -/
def shownAt (level : Nat) : Json → String
  | null => "null"
  | number value => toString value
  | text content => shownText content
  | array items => block "[" "]" level (shownItems (level + 1) items)
  | object fields => block "\x7b" "\x7d" level (shownFields (level + 1) fields)

/-- The items of an array. -/
def shownItems (level : Nat) : List Json → List String
  | [] => []
  | item :: rest => shownAt level item :: shownItems level rest

/-- The fields of an object. -/
def shownFields (level : Nat) : List (String × Json) → List String
  | [] => []
  | (name, value) :: rest =>
    (shownText name ++ ": " ++ shownAt level value) :: shownFields level rest

end

/-- A value as it is printed. -/
def shown (value : Json) : String :=
  value.shownAt 0

end Json

end Codebook.Report
