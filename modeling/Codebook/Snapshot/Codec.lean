/-
This file provides codecs: a way to write values as bytes and a way to read them back, side by
side. A reader takes what it needs off the front of its input and leaves the rest, so codecs can be
put one behind the other, or says why it cannot. Numbers have a fixed width and start with their
lowest byte; a list is preceded by its length, a choice by the number of the alternative.
-/

import Codebook.SortedMap

namespace Codebook

/-- Why bytes cannot be read. -/
inductive ReadFault
  /-- They end too early or stand for no value. -/
  | malformed
  /-- They announce a text for which no memory has room, and of course break off in it. -/
  | noRoom
deriving DecidableEq, Repr

/-- How values are written as bytes and read back. -/
structure Codec (Value : Type) where
  write : Value → List UInt8
  /-- The value at the start of the bytes, and the bytes behind it. -/
  read : List UInt8 → Except ReadFault (Value × List UInt8)

namespace Codec

variable {Value Other : Type}

/-! ### Combining codecs -/

/-- Nothing at all. -/
def unit : Codec Unit where
  write _ := []
  read bytes := .ok ((), bytes)

/-- One value behind the other. -/
def pair (first : Codec Value) (second : Codec Other) : Codec (Value × Other) where
  write value := first.write value.1 ++ second.write value.2
  read bytes :=
    match first.read bytes with
    | .error fault => .error fault
    | .ok (left, rest) => (second.read rest).map fun (right, rest) => ((left, right), rest)

/-- The same bytes for another type: written values are unpacked, values read are packed. -/
def convert (codec : Codec Value) (pack : Value → Other) (unpack : Other → Value) :
    Codec Other where
  write value := codec.write (unpack value)
  read bytes := (codec.read bytes).map fun (value, rest) => (pack value, rest)

/-! ### Numbers -/

/-- The lowest `width` bytes of a number, lowest first. -/
def writeNat : Nat → Nat → List UInt8
  | 0, _ => []
  | width + 1, value => UInt8.ofNat value :: writeNat width (value / 256)

/-- Reads a number of `width` bytes. -/
def readNat : Nat → List UInt8 → Except ReadFault (Nat × List UInt8)
  | 0, bytes => .ok (0, bytes)
  | _ + 1, [] => .error .malformed
  | width + 1, byte :: rest =>
    (readNat width rest).map fun (value, rest) => (byte.toNat + 256 * value, rest)

/-- Natural numbers below 256 to the power of `width`. -/
def nat (width : Nat) : Codec Nat where
  write := writeNat width
  read := readNat width

/-- Counts, indices and line numbers. -/
def count : Codec Nat := nat 8

/-- Integers of 64 bits in two's complement. -/
def int : Codec Int :=
  count.convert
    (fun value => if 2 * value < UInt64.size then (value : Int) else (value : Int) - UInt64.size)
    (fun value => (value % UInt64.size).toNat)

/-! ### Choices -/

/-- Values told apart by the number of their alternative, which is written first. -/
def tagged (tag : Value → Nat) (alternative : Nat → Option (Codec Value)) : Codec Value where
  write value :=
    (nat 4).write (tag value) ++ ((alternative (tag value)).map (·.write value)).getD []
  read bytes :=
    match (nat 4).read bytes with
    | .error fault => .error fault
    | .ok (number, rest) =>
      match alternative number with
      | none => .error .malformed
      | some codec => codec.read rest

/-- One of the listed values, written as its place in the list. -/
def oneOf [DecidableEq Value] (values : List Value) : Codec Value where
  write value := (nat 4).write (values.idxOf value)
  read bytes :=
    match (nat 4).read bytes with
    | .error fault => .error fault
    | .ok (number, rest) =>
      match values[number]? with
      | none => .error .malformed
      | some value => .ok (value, rest)

/-- A value that may be missing: a byte 0 or 1, and the value in the latter case. -/
def option (codec : Codec Value) : Codec (Option Value) where
  write
    | none => [0]
    | some value => 1 :: codec.write value
  read
    | 0 :: rest => .ok (none, rest)
    | 1 :: rest => (codec.read rest).map fun (value, rest) => (some value, rest)
    | _ => .error .malformed

/-! ### Sequences -/

/-- Reads so many values more, behind those read already. -/
def readMore (codec : Codec Value) :
    Nat → Array Value → List UInt8 → Except ReadFault (List Value × List UInt8)
  | 0, values, bytes => .ok (values.toList, bytes)
  | more + 1, values, bytes =>
    match codec.read bytes with
    | .error fault => .error fault
    | .ok (value, rest) => readMore codec more (values.push value) rest

/-- A list behind its length. -/
def list (codec : Codec Value) : Codec (List Value) where
  write values := count.write values.length ++ values.flatMap codec.write
  read bytes :=
    match count.read bytes with
    | .error fault => .error fault
    | .ok (length, rest) => readMore codec length #[] rest

/-- The UTF-8 bytes of a text. -/
def utf8 (text : String) : List UInt8 :=
  text.toUTF8.data.toList

/-- The length from which on no memory has room for a text. -/
def textLimit : Nat := UInt64.size / 2

/-- A text in UTF-8 behind the number of its bytes. -/
def text : Codec String where
  write text := count.write (utf8 text).length ++ utf8 text
  read bytes :=
    match count.read bytes with
    | .error fault => .error fault
    | .ok (length, rest) =>
      let encoded := rest.take length
      if encoded.length = length then
        match String.fromUTF8? ⟨encoded.toArray⟩ with
        | none => .error .malformed
        | some text => .ok (text, rest.drop length)
      else .error (if length < textLimit then .malformed else .noRoom)

/-- A finite map as the list of its entries. Whatever their order in the bytes, the map read is
ascending, and of two entries with the same key the later counts. -/
def sortedMap [Ord Value] [Std.TransOrd Value] [Std.LawfulEqOrd Value] (key : Codec Value)
    (value : Codec Other) : Codec (SortedMap Value Other) :=
  (key.pair value).list.convert .ofList (·.entries)

/-- A finite set as the list of its members. -/
def sortedSet [Ord Value] [Std.TransOrd Value] [Std.LawfulEqOrd Value] (key : Codec Value) :
    Codec (SortedSet Value) :=
  key.list.convert (fun keys => .ofList (keys.map (·, ()))) (·.keys)

end Codec

end Codebook
