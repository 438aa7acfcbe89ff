/-
This file provides readers: functions that take what they recognise off the front of a text, or
fail without a reason. Repetition is bounded by the length of the text, which is no restriction for
readers that take at least one character.
-/

namespace Codebook.Toml

/-- Reads a value off the front of a text. -/
abbrev Reader := StateT (List Char) Option

namespace Reader

variable {Value : Type}

/-- One character that satisfies `accept`. -/
def satisfy (accept : Char → Bool) : Reader Char
  | [] => none
  | c :: rest => if accept c then some (c, rest) else none

def char (expected : Char) : Reader Unit :=
  discard (satisfy (· == expected))

def exact (expected : List Char) : Reader Unit := fun text =>
  if expected.isPrefixOf text then some ((), text.drop expected.length) else none

/-- The longest row of characters that satisfy `accept`; it may be empty. -/
def takeWhile (accept : Char → Bool) : Reader (List Char) := fun text =>
  some (text.takeWhile accept, text.dropWhile accept)

/-- Succeeds, without taking anything, where the text goes on as `accept` asks. -/
def ahead (accept : List Char → Bool) : Reader Unit := fun text =>
  if accept text then some ((), text) else none

def atEnd : Reader Unit :=
  ahead List.isEmpty

/-- What `reader` reads, or nothing if it fails. -/
def optional? (reader : Reader Value) : Reader (Option Value) :=
  (some <$> reader) <|> pure none

/-- At most so many repetitions of `reader`, until it fails. -/
def upTo (reader : Reader Value) : Nat → Reader (List Value)
  | 0 => pure []
  | more + 1 => do
    match ← optional? reader with
    | none => pure []
    | some value => return value :: (← upTo reader more)

/-- As many repetitions of `reader` as there are. -/
def many (reader : Reader Value) : Reader (List Value) := do
  upTo reader (← get).length

/-- What `reader` reads, if it satisfies `accept`. -/
def check (accept : Value → Bool) (reader : Reader Value) : Reader Value := do
  let value ← reader
  if accept value then pure value else failure

end Reader

end Codebook.Toml
