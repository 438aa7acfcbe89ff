/-
This file splits story text into sentences. A sentence ends at a full stop, a question mark or an
exclamation mark that is followed by white space and then by a capital or a double quote, unless
the full stop belongs to an initial or an abbreviation, or the text so far has an open parenthesis
or quotation. Length bounds only choose among the sentences; they do not move the splits.
-/

import Codebook.Text.Case
import Codebook.Text.Pieces

namespace Codebook

open Text

/-- Titles, units and the like whose full stop does not end a sentence. -/
def abbreviations : List String :=
  ["mrs.", "ms.", "mr.", "dr.", "gov.", "sr.", "rev.", "r.n.", "pres.", "treas.", "sect.",
    "maj.", "ph.d.", "proc.", "fr.", "asst.", "p.f.c.", "prof.", "admr.", "engr.", "mgr.",
    "supt.", "admin.", "assoc.", "voc.", "hon.", "m.d.", "dpty.", "sec.", "capt.", "c.e.o.",
    "c.f.o.", "c.i.o.", "c.o.o.", "c.p.a.", "c.n.a.", "acct.", "llc.", "inc.", "dir.",
    "esq.", "lt.", "d.d.", "ed.", "revd.", "psy.d.", "v.p.", "senr.", "gen.", "prov.",
    "cmdr.", "sgt.", "sen.", "col.", "lieut.", "cpl.", "pfc.", "k.p.h.", "cent.", "deg.",
    "doz.", "fahr.", "cel.", "f.", "c.", "k.", "ft.", "fur.", "gal.", "gr.", "in.", "kg.",
    "km.", "kw.", "l.", "lat.", "lb.", "long.", "mg.", "mm.", "m.p.g.", "m.p.h.", "cc.",
    "qr.", "qt.", "sq.", "t.", "vol.", "w.", "wt."]

/-- The number of characters a sentence must have to be kept. Both bounds are exclusive. -/
structure LengthBounds where
  min : Nat
  max : Nat
deriving DecidableEq, Repr

/-- Sentences of 101 to 511 characters. -/
def LengthBounds.standard : LengthBounds := ⟨100, 512⟩

/-- Whether a sentence is kept. -/
def LengthBounds.keeps (bounds : LengthBounds) (sentence : List Char) : Bool :=
  bounds.min < sentence.length && sentence.length < bounds.max

/-- Why a text cannot be split. -/
inductive SplitFault
  /-- The word before a full stop follows a white space character that takes more than one byte
  in UTF-8. -/
  | wideSpaceBeforeWord
deriving DecidableEq, Repr

namespace Sentences

/-! ### Where a sentence ends -/

/-- Whether a character ends sentences. -/
def isTerminal (c : Char) : Bool :=
  c == '.' || c == '?' || c == '!'

/-- Whether a character may open the next sentence. -/
def isOpening (c : Char) : Bool :=
  ('A' ≤ c && c ≤ 'Z') || c == '"'

/-- Whether a text goes on with white space and then the opening of a sentence. -/
def opensNext (text : List Char) : Bool :=
  match text with
  | [] => false
  | c :: rest => isSpace c && (rest.dropWhile isSpace).head?.any isOpening

/-- Whether a sentence read so far, given from its end, ends in an initial: an uppercase letter
behind a blank. -/
def endsInInitial : List Char → Bool
  | initial :: ' ' :: _ => isUpper initial
  | _ => false

/-- Whether a sentence read so far, given from its end, ends with an abbreviation when a full stop
follows. -/
def endsInAbbreviation (backwards : List Char) : Except SplitFault Bool :=
  let word := (backwards.takeWhile (!isSpace ·)).reverse
  match backwards.dropWhile (!isSpace ·) with
  | space :: _ =>
    if 1 < space.utf8Size then .error .wideSpaceBeforeWord
    else .ok (abbreviations.contains (String.ofList (lowerChars (word ++ ['.']))))
  | [] => .ok (abbreviations.contains (String.ofList (lowerChars (word ++ ['.']))))

/-- Whether every parenthesis and every quotation is closed. -/
def isBalanced (text : List Char) : Bool :=
  text.count '(' == text.count ')' && text.count '"' % 2 == 0

/-- Whether a sentence read so far, given from its end, ends with the terminal `mark`. -/
def endsWith (mark : Char) (backwards : List Char) : Except SplitFault Bool :=
  if mark = '.' then
    if endsInInitial backwards then .ok false
    else do
      if ← endsInAbbreviation backwards then return false
      else return isBalanced backwards
  else .ok (isBalanced backwards)

/-! ### Splitting -/

/-- Where the splitting stands: inside a sentence, whose characters so far are given from its end,
or in the white space after one. -/
inductive Place
  | inside (backwards : List Char)
  | between
deriving DecidableEq, Repr

/-- Splits the rest of a text. A sentence includes the white space character after its terminal;
further white space belongs to no sentence. The sentences so far are given from the last. -/
def splitFrom (done : List (List Char)) : Place → List Char → Except SplitFault (List (List Char))
  | .inside backwards, [] => .ok (backwards.reverse :: done).reverse
  | .between, [] => .ok done.reverse
  | .inside backwards, c :: rest =>
    if isTerminal c && opensNext rest then
      match endsWith c backwards with
      | .error fault => .error fault
      | .ok false => splitFrom done (.inside (c :: backwards)) rest
      | .ok true => splitFrom ((backwards.reverse ++ c :: rest.take 1) :: done) .between rest
    else splitFrom done (.inside (c :: backwards)) rest
  | .between, c :: rest =>
    if isSpace c then splitFrom done .between rest
    else splitFrom done (.inside [c]) rest

/-- The sentences of a text, whatever their length. Without any split the text is one sentence. -/
def all (text : List Char) : Except SplitFault (List (List Char)) :=
  splitFrom [] (.inside []) text

/-- The sentences of a text that the bounds keep. -/
def split (bounds : LengthBounds) (text : List Char) : Except SplitFault (List (List Char)) :=
  (all text).map fun sentences => sentences.filter bounds.keeps

/-- The sentences of a text that has one on each line: its lines without white space at either
end, as far as anything is left of them. -/
def ofLines (text : List Char) : List (List Char) :=
  ((pieces (· == '\n') text).map trim).filter fun line => !line.isEmpty

/-- The sentences of an input, which may already have one on each line. -/
def ofInput (bounds : LengthBounds) (onePerLine : Bool) (text : List Char) :
    Except SplitFault (List (List Char)) :=
  if onePerLine then .ok (ofLines text) else split bounds text

end Sentences

end Codebook
