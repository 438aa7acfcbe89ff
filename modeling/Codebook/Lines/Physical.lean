/-
This file cuts the contents of a dictionary file into physical lines. A line ends with a line
feed; carriage returns before it do not belong to the line. Each line is decoded by itself, so
that bytes which are not UTF-8 spoil only the line they stand on.
-/

import Codebook.Text.Pieces

namespace Codebook

/-- A physical line: its text without the line end, or the fact that it has none. -/
inductive PhysicalLine
  | text (chars : List Char)
  | undecodable
deriving DecidableEq, Repr

namespace PhysicalLine

/-- The line whose text, up to the line feed, is given. -/
def ofChars (chars : List Char) : PhysicalLine :=
  .text (Text.dropEndWhile (· == '\r') chars)

/-- The line whose bytes, up to the line feed, are given. -/
def ofBytes (bytes : List UInt8) : PhysicalLine :=
  match String.fromUTF8? ⟨bytes.toArray⟩ with
  | some decoded => ofChars decoded.toList
  | none => .undecodable

def linesOfText (text : List Char) : List PhysicalLine :=
  (Text.linesBy (· == '\n') text).map ofChars

def linesOfBytes (bytes : ByteArray) : List PhysicalLine :=
  (Text.linesBy (· == 10) bytes.data.toList).map ofBytes

end PhysicalLine

end Codebook
