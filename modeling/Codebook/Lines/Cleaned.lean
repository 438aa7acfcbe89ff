/-
This file strips dictionary files down to the lines that carry entries. Blank lines, lines that
start with `#` or `<!`, what follows a `#`, and comments between `<!--` and `-->` are dropped; at
most one comment is looked for after other text on a line, and one at its start. A comment may run
over several physical lines, so cleaning is a machine with one state, the comment it is in, and
one step per physical line.
-/

import Codebook.Lines.Physical

namespace Codebook

open Text

/-- The comment that is open at the start of a physical line. -/
inductive Comment
  | outside
  /-- Opened at the start of a line: cleaning resumes behind its end. -/
  | leading
  /-- Opened behind `before`, which the text behind its end continues. -/
  | inline (before : List Char)
deriving DecidableEq, Repr

namespace Comment

def opener : List Char := ['<', '!', '-', '-']

def closer : List Char := ['-', '-', '>']

/-- A cleaned line keeps the white space at its start. A blank one is dropped. -/
def keepText (line : List Char) : Option (List Char) :=
  if isBlank line then none else some (trimEnd line)

/-- Whether a line has no entry on it: it is blank, or starts with `#` or `<!`. -/
def isIdle (line : List Char) : Bool :=
  match trimStart line with
  | [] => true
  | '#' :: _ => true
  | '<' :: '!' :: _ => true
  | _ => false

/-- Cleans a line that does not start inside or with a comment. -/
def cleanBody (line : List Char) : Comment × Option (List Char) :=
  if isIdle line then (.outside, none)
  else
    let kept := line.takeWhile (· != '#')
    match cutAt? opener kept with
    | none => (.outside, keepText kept)
    | some (before, after) =>
      match cutAt? closer after with
      | none => (.inline before, none)
      | some (_, rest) => (.outside, keepText (before ++ rest))

/-- One physical line: the comment that is open after it, and the cleaned line it completes. -/
def clean (comment : Comment) (line : List Char) : Comment × Option (List Char) :=
  match comment with
  | .outside =>
    match stripStart? opener (trimStart line) with
    | none => cleanBody line
    | some after =>
      match cutAt? closer after with
      | none => (.leading, none)
      | some (_, rest) => cleanBody rest
  | .leading =>
    match cutAt? closer line with
    | none => (.leading, none)
    | some (_, rest) => cleanBody rest
  | .inline before =>
    match cutAt? closer line with
    | none => (.inline before, none)
    | some (_, rest) => (.outside, keepText (before ++ rest))

end Comment

/-! ### Scanning a file -/

/-- A cleaned line and the number of the physical line that completes it, counted from 1. -/
structure Line where
  number : Nat
  text : List Char
deriving DecidableEq, Repr

/-- What comes out of a file: a cleaned line, or a physical line that cannot be decoded, which is
not counted and is named by the number of those before it. -/
inductive LineEvent
  | line (line : Line)
  | undecodable (after : Nat)
deriving DecidableEq, Repr

namespace LineEvent

/-- The number of physical lines counted up to an event. -/
def number : LineEvent → Nat
  | .line cleaned => cleaned.number
  | .undecodable after => after

/-- The cleaned line, if the event is one. -/
def line? : LineEvent → Option Line
  | .line cleaned => some cleaned
  | .undecodable _ => none

/-- The number of lines before the one that cannot be decoded, if the event is one. -/
def failure? : LineEvent → Option Nat
  | .line _ => none
  | .undecodable after => some after

end LineEvent

/-- The state of the cleaning machine: the open comment, the physical lines counted so far, and
what has come out. -/
structure Scan where
  comment : Comment
  counted : Nat
  events : Array LineEvent
deriving DecidableEq

namespace Scan

def start : Scan := ⟨.outside, 0, #[]⟩

/-- Takes in one physical line. One that cannot be decoded ends an open comment. -/
def feed (scan : Scan) : PhysicalLine → Scan
  | .undecodable =>
    { scan with comment := .outside, events := scan.events.push (.undecodable scan.counted) }
  | .text chars =>
    let (comment, kept) := scan.comment.clean chars
    let number := scan.counted + 1
    { comment, counted := number,
      events := match kept with
        | none => scan.events
        | some text => scan.events.push (.line ⟨number, text⟩) }

/-- Takes in physical lines one after the other. -/
def feedAll (scan : Scan) (lines : List PhysicalLine) : Scan :=
  lines.foldl feed scan

theorem feedAll_append (scan : Scan) (left right : List PhysicalLine) :
    scan.feedAll (left ++ right) = (scan.feedAll left).feedAll right :=
  List.foldl_append

end Scan

/-! ### Reading line by line -/

/-- A file that is read one cleaned line at a time. `number` counts the physical lines read so
far, `total` those that will have been read at the end. -/
structure LineReader where
  pending : List LineEvent
  number : Nat
  total : Nat
deriving DecidableEq, Repr

namespace LineReader

def ofLines (lines : List PhysicalLine) : LineReader :=
  let scan := Scan.start.feedAll lines
  { pending := scan.events.toList, number := 0, total := scan.counted }

/-- The next cleaned line, or a line that cannot be decoded, behind which reading may go on; at
the end of the file there is neither. A comment that is still open there hides the rest. -/
def next (reader : LineReader) : Option LineEvent × LineReader :=
  match reader.pending with
  | [] => (none, { reader with number := reader.total })
  | event :: rest => (some event, { reader with pending := rest, number := event.number })

/-- Gives up what has not been read. From now on the reader is at its end. -/
def close (reader : LineReader) : LineReader :=
  { reader with pending := [], total := reader.number }

end LineReader

/-- What a compiler gets to see of a file: the cleaned lines up to the first physical line that
cannot be decoded, and, if there is such a line, the number of lines counted before it. -/
structure Script where
  lines : List Line
  failedAfter : Option Nat
deriving DecidableEq, Repr

def Script.ofLines (lines : List PhysicalLine) : Script :=
  let events := (Scan.start.feedAll lines).events.toList
  { lines := (events.takeWhile fun event => event.line?.isSome).filterMap LineEvent.line?
    failedAfter := events.findSome? LineEvent.failure? }

end Codebook
