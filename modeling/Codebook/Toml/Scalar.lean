/-
This file reads the scalar values of TOML: strings of all four kinds, integers in four bases,
floats, booleans, and dates and times.
-/

import Codebook.Calendar
import Codebook.Toml.Reader
import Codebook.Toml.Value

namespace Codebook.Toml

open Reader

/-! ### Blanks, line ends and comments -/

def isBlankChar (c : Char) : Bool :=
  c == ' ' || c == '\t'

/-- Whether a character may stand in a comment or a literal string: any but the controls other than
the tab. -/
def isPlain (c : Char) : Bool :=
  c == '\t' || (0x20 ≤ c.toNat && c.toNat != 0x7F)

def blanks : Reader Unit :=
  discard (takeWhile isBlankChar)

def lineEnd : Reader Unit :=
  char '\n' <|> exact ['\r', '\n']

def comment : Reader Unit := do
  char '#'
  discard (takeWhile isPlain)

/-! ### Strings -/

def hexValue (c : Char) : Nat :=
  if c.isDigit then c.toNat - '0'.toNat else c.toLower.toNat - 'a'.toNat + 10

def isHexDigit (c : Char) : Bool :=
  c.isDigit || ('a' ≤ c && c ≤ 'f') || ('A' ≤ c && c ≤ 'F')

/-- The value of a row of digits in the given base. -/
def valueOf (base : Nat) (digits : List Char) : Nat :=
  digits.foldl (fun value c => base * value + hexValue c) 0

/-- Exactly so many characters that satisfy `accept`. -/
def exactly (accept : Char → Bool) : Nat → Reader (List Char)
  | 0 => pure []
  | more + 1 => do
    let c ← satisfy accept
    return c :: (← exactly accept more)

/-- A character given by the number of its code point, in so many hexadecimal digits. -/
def codePoint (digits : Nat) : Reader Char := do
  let code := valueOf 16 (← exactly isHexDigit digits)
  if code.isValidChar then pure (Char.ofNat code) else failure

def escape : Reader Char := do
  char '\\'
  match ← satisfy fun _ => true with
  | 'b' => pure '\x08'
  | 't' => pure '\t'
  | 'n' => pure '\n'
  | 'f' => pure '\x0c'
  | 'r' => pure '\r'
  | '"' => pure '"'
  | '\\' => pure '\\'
  | 'u' => codePoint 4
  | 'U' => codePoint 8
  | _ => failure

/-- A string in double quotes on one line. -/
def basicString : Reader (List Char) := do
  char '"'
  let content ← many (satisfy (fun c => isPlain c && c != '"' && c != '\\') <|> escape)
  char '"'
  return content

/-- A string in single quotes on one line, in which nothing is escaped. -/
def literalString : Reader (List Char) := do
  char '\''
  let content ← takeWhile fun c => isPlain c && c != '\''
  char '\''
  return content

/-- One or two quotes within a string that three quotes delimit. -/
def innerQuotes (quote : Char) : Reader (List Char) :=
  let followed := ahead fun text => text.head?.any (· != quote)
  (exact [quote, quote] *> followed *> pure [quote, quote]) <|>
    (exact [quote] *> followed *> pure [quote])

/-- The end of a string that three quotes delimit. Up to two quotes right before the delimiter
belong to the string. -/
def closeQuotes (quote : Char) : Reader (List Char) := do
  let run := (← get).takeWhile (· == quote)
  if run.length < 3 then failure
  let inner := run.take (min 2 (run.length - 3))
  exact (inner ++ [quote, quote, quote])
  return inner

/-- A string that three quotes delimit, made up of `piece`s. A line end right after the opening
quotes does not belong to it; any other counts as a line feed. -/
def multiLine (quote : Char) (piece : Reader (List Char)) : Reader (List Char) := do
  exact [quote, quote, quote]
  discard (optional? lineEnd)
  let pieces ← many (piece <|> (lineEnd *> pure ['\n']) <|> innerQuotes quote)
  return pieces.flatten ++ (← closeQuotes quote)

/-- A line end that a backslash takes out of a string, with the blanks and line ends after it. -/
def escapedLineEnd : Reader (List Char) := do
  char '\\'
  blanks
  lineEnd
  discard (many (discard (satisfy isBlankChar) <|> lineEnd))
  return []

/-- A piece of a multi-line string in double quotes. -/
def basicPiece : Reader (List Char) :=
  (([·]) <$> satisfy fun c => isPlain c && c != '"' && c != '\\') <|> escapedLineEnd <|>
    (([·]) <$> escape)

/-- A piece of a multi-line string in single quotes. -/
def literalPiece : Reader (List Char) :=
  ([·]) <$> satisfy fun c => isPlain c && c != '\''

def string : Reader (List Char) :=
  multiLine '"' basicPiece <|> basicString <|> multiLine '\'' literalPiece <|> literalString

/-! ### Numbers -/

/-- A row of digits. Single underscores may stand between them. -/
def digitRow (isDigit : Char → Bool) : Reader (List Char) := do
  let first ← satisfy isDigit
  let rest ← many (satisfy isDigit <|> (char '_' *> satisfy isDigit))
  return first :: rest

/-- A sign; true stands for a minus. -/
def sign : Reader Bool :=
  (char '-' *> pure true) <|> (char '+' *> pure false) <|> pure false

/-- The digits of a decimal integer, which has no leading zeros. -/
def decimalDigits : Reader (List Char) :=
  (char '0' *> pure ['0']) <|> digitRow Char.isDigit

def fitsInteger (value : Int) : Bool :=
  Int64.minValue.toInt ≤ value && value ≤ Int64.maxValue.toInt

/-- An integer in another base, behind its mark. -/
def basedInteger (mark : Char) (base : Nat) (isDigit : Char → Bool) : Reader Int := do
  exact ['0', mark]
  return valueOf base (← digitRow isDigit)

def integer : Reader Int :=
  check fitsInteger
    (basedInteger 'x' 16 isHexDigit <|> basedInteger 'o' 8 (fun c => '0' ≤ c && c ≤ '7') <|>
      basedInteger 'b' 2 (fun c => c == '0' || c == '1') <|> do
        let negative ← sign
        let value : Int := valueOf 10 (← decimalDigits)
        return if negative then -value else value)

def fraction : Reader (List Char) := do
  char '.'
  digitRow Char.isDigit

def exponent : Reader Int := do
  discard (satisfy fun c => c == 'e' || c == 'E')
  let negative ← sign
  let value : Int := valueOf 10 (← digitRow Char.isDigit)
  return if negative then -value else value

/-- Whether `digits` times ten to the power of `exponent` rounds to infinity in double
precision: from the middle between the largest finite number and the next power of two on. -/
def overflows (digits : List Char) (exponent : Int) : Bool :=
  let limit := Nat.pow 2 1024 - Nat.pow 2 970
  let value := valueOf 10 digits
  if value = 0 then false
  else if 400 < exponent then true
  else if (digits.length : Int) + 400 < -exponent then false
  else if 0 ≤ exponent then limit ≤ value * Nat.pow 10 exponent.toNat
  else limit * Nat.pow 10 (-exponent).toNat ≤ value

/-- A float. A positive number beyond the largest finite one is refused. -/
def float : Reader Unit := do
  let negative ← sign
  (do
    let whole ← decimalDigits
    let fraction? ← optional? fraction
    let exponent? ← optional? exponent
    if fraction?.isNone && exponent?.isNone then failure
    let places := fraction?.getD []
    if !negative && overflows (whole ++ places) (exponent?.getD 0 - places.length) then failure)
    <|> exact "inf".toList <|> exact "nan".toList

/-! ### Dates and times -/

def numberOf (digits : Nat) : Reader Nat :=
  valueOf 10 <$> exactly Char.isDigit digits

def date : Reader Unit := do
  let year ← numberOf 4
  char '-'
  let month ← numberOf 2
  char '-'
  let day ← numberOf 2
  if (Date.fault? ⟨year, month, day⟩).isSome then failure

/-- A time of the day; a minute may have a leap second. -/
def time : Reader Unit := do
  discard (check (· ≤ 23) (numberOf 2))
  char ':'
  discard (check (· ≤ 59) (numberOf 2))
  char ':'
  discard (check (· ≤ 60) (numberOf 2))
  discard (optional? do
    char '.'
    discard (satisfy Char.isDigit)
    discard (takeWhile Char.isDigit))

/-- The distance of a time from universal time. -/
def offset : Reader Unit :=
  discard (satisfy fun c => c == 'Z' || c == 'z') <|> do
    discard (satisfy fun c => c == '+' || c == '-')
    discard (check (· ≤ 23) (numberOf 2))
    char ':'
    discard (check (· ≤ 59) (numberOf 2))

/-- A date, a time, or both; only both together may have an offset. -/
def dateTime : Reader Unit :=
  (do
    date
    discard (optional? do
      discard (satisfy fun c => c == 'T' || c == 't' || c == ' ')
      time
      discard (optional? offset)))
  <|> time

/-! ### Scalars -/

def scalar : Reader Value :=
  ((fun content => .text (String.ofList content)) <$> string) <|> (dateTime *> pure .dateTime) <|>
    (float *> pure .float) <|> (.integer <$> integer) <|>
    (exact "true".toList *> pure (.boolean true)) <|>
    (exact "false".toList *> pure (.boolean false))

end Codebook.Toml
