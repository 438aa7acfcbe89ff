/-
This file compiles verb dictionaries. A file is a sequence of blocks, each under a header line that
starts with `---` and may give the block a code. The first verb of a block is its primary: the
other verbs of the block stand for it, and the block's patterns are stored under it. Between the
blocks, synsets name sets of phrases that patterns may refer to.
-/

import Codebook.Compilation
import Codebook.Inflection
import Codebook.Verbs.Dictionary

namespace Codebook

open Text

/-- The code of a block that declares none: a verb of the block by itself reports no event. -/
def nullCode : String := "---"

/-- The synset whose members are being read. -/
structure OpenSynset where
  name : String
  /-- Whether members also get a generated plural. -/
  plurals : Bool
deriving DecidableEq, Repr

/-- How far the compilation of a verb dictionary has come. -/
structure VerbState where
  dictionary : VerbDictionary
  blockCode : String
  /-- Whether the next verb becomes the primary of its block. -/
  awaitingPrimary : Bool
  /-- The primary of the latest block that has one. -/
  anchor : Option String
  synset : Option OpenSynset
deriving DecidableEq

/-- A pattern: the phrases on both sides of the verb, and what they make it stand for. -/
structure Pattern where
  /-- The verb the pattern is stored under. -/
  anchor : String
  before : Phrase
  after : Phrase
  code : String
  line : Nat
deriving DecidableEq, Repr

namespace Pattern

/-- The path of a pattern: outward from the anchor, first to the right and then to the left. -/
def path (pattern : Pattern) : Path :=
  [.root pattern.anchor] ++
    pattern.after.forward (pattern.after.lead.getD .gap) Phrase.patternStep ++ [.boundary] ++
    pattern.before.backward Phrase.patternStep

def entry (pattern : Pattern) : VerbEntry :=
  ⟨pattern.anchor, pattern.code, pattern.line⟩

end Pattern

namespace VerbState

/-- Before the first line there is no block yet, but a verb may already come. -/
def start : VerbState :=
  ⟨.empty, nullCode, true, none, none⟩

/-! ### Synsets -/

/-- Opens a synset. An underscore at the end of the header suppresses the plurals of all its
members. -/
def openSynset (state : VerbState) (header : List Char) : Except Skip VerbState :=
  let name := upperChars (dropEndWhile (· == '_') header)
  if (String.ofList name).utf8ByteSize < 2 ∨ name.any isSpace then
    .error (.badSynsetName (String.ofList header))
  else
    let name := String.ofList name
    let dictionary := { state.dictionary with
      synsetNames := state.dictionary.synsetNames.insert name () }
    .ok { state with dictionary, synset := some ⟨name, header.getLast? ≠ some '_'⟩ }

/-- Stores a member of `synset`, and its plural unless that is suppressed by the header or by an
underscore at the end of the member. -/
def addMember (state : VerbState) (synset : OpenSynset) (text : List Char) :
    Except Skip VerbState :=
  let member := trim text
  let words := upperChars (trim (blankUnderscores member))
  if words.isEmpty then .error (.emptyMember synset.name)
  else
    let spellings :=
      if synset.plurals ∧ member.getLast? ≠ some '_' then
        [words, Inflection.synsetPlural words]
      else [words]
    let phrases := spellings.map fun spelling => ((Phrase.ofChars spelling).rooted, synset.name)
    let dictionary := { state.dictionary with
      synsets := state.dictionary.synsets.insertAll phrases }
    .ok { state with dictionary }

/-! ### Patterns -/

/-- The first synset that a token of the phrases refers to without its being defined. -/
def undefinedSynset? (verbs : VerbDictionary) (tokens : List Token) : Option String :=
  (tokens.map fun token => upper token.text).find? fun text =>
    text.toList.head? = some '&' ∧ verbs.synsetNames.contains text = false

/-- Reads a pattern, given behind its dash. The `*` in it marks the verb. -/
def readPattern (state : VerbState) (text : List Char) (code? : Option String) (number : Nat) :
    Except Skip Pattern := do
  let some anchor := state.anchor | throw .patternBeforeVerb
  if text.contains '\x7b' then throw .disjunctivePattern
  let some code := code? | throw .patternWithoutCode
  let text := dropUnderscoreBeforeBlank text
  let text := (stripLast? '_' text).getD text
  let some (before, after) := splitAt? (· == '*') text | throw .patternWithoutVerbMark
  let before := Phrase.ofChars (trimStart before)
  let after := Phrase.ofChars (trimEnd after)
  match undefinedSynset? state.dictionary (before.tokens ++ after.tokens) with
  | some missing => throw (.undefinedSynset missing)
  | none => return ⟨anchor, before, after, code, number⟩

def storePattern (state : VerbState) (pattern : Pattern) : VerbState :=
  let patterns := state.dictionary.patterns.insert pattern.path pattern.entry
  { state with dictionary := { state.dictionary with patterns } }

def addPattern (state : VerbState) (text : List Char) (code? : Option String) (number : Nat) :
    Except Skip VerbState :=
  (state.readPattern text code? number).map state.storePattern

/-! ### Verbs -/

/-- A verb line taken apart: the verb in upper case, and the forms in braces if they are given. -/
structure VerbLine where
  verb : List Char
  forms : Option (List (List Char))
deriving DecidableEq, Repr

/-- Takes a verb line apart. What stands between the verb and the braces is an annotation. -/
def readVerbLine (body : List Char) : Except Skip VerbLine := do
  let (base, forms) ← match splitAt? (· == '\x7b') body with
    | none => pure (body, none)
    | some (base, rest) =>
      match splitAt? (· == '\x7d') rest with
      | none => throw .unclosedForms
      | some (forms, _) => pure (base, some ((words forms).map upperChars))
  match words base with
  | [] => throw .lineWithoutVerb
  | verb :: _ => return ⟨upperChars verb, forms⟩

/-- The surface forms of a single-word verb. A `+` in front is not part of it. -/
def surfaces (line : VerbLine) : List (List Char) :=
  let root := line.verb.dropWhile (· == '+')
  root :: line.forms.getD (Inflection.verbForms root)

/-- The words before the first word marked with `+`, that word without the mark, and the words
after it. -/
def splitAtMark? : List (List Char) → Option (List (List Char) × List Char × List (List Char))
  | [] => none
  | ('+' :: root) :: rest => some ([], root, rest)
  | word :: rest =>
    (splitAtMark? rest).map fun (before, root, after) => (word :: before, root, after)

/-- The surface forms of a multi-word verb: the verb itself and either the given forms or those in
which only the marked word is inflected. -/
def multiWordSurfaces (line : VerbLine) : Except Skip (List (List Char)) :=
  match line.forms with
  | some forms => .ok (line.verb :: forms)
  | none =>
    match splitAtMark? (pieces (· == '_') line.verb) with
    | none => .error (.multiWordWithoutRoot (String.ofList line.verb))
    | some (before, root, after) =>
      .ok (line.verb :: (Inflection.verbForms root).map fun form =>
        ['_'].intercalate (before ++ ('+' :: form) :: after))

/-- The path of a multi-word surface form, outward from its marked word; there is none without a
mark. -/
def multiWordPath? (surface : List Char) : Option Path :=
  (splitAtMark? (runs (· == '_') surface)).map fun (before, root, after) =>
    let neighbours := fun words : List (List Char) =>
      words.map fun word => Phrase.literal (String.ofList word) .adjacent
    [.root (String.ofList root)] ++ neighbours after ++ [.boundary] ++
      (neighbours before).reverse

/-- Makes a verb the primary of its block if the block still lacks one. -/
def takePrimary (state : VerbState) (entry : VerbEntry) : VerbState :=
  if state.awaitingPrimary ∨ state.anchor = none then
    let patterns := state.dictionary.patterns.insert (VerbDictionary.formPath entry.anchor) entry
    { state with
      dictionary := { state.dictionary with patterns }
      anchor := some entry.anchor
      awaitingPrimary := false }
  else state

/-- Stores surface forms, each under its path. -/
def addForms (state : VerbState) (paths : List Path) (entry : VerbEntry) : VerbState :=
  let forms := state.dictionary.forms.insertAll (paths.map (·, entry))
  { state with dictionary := { state.dictionary with forms } }

/-- Stores the forms of a multi-word verb. The verb has become the primary of its block by then,
and forms with a mark are stored even if others lack one. -/
def addMultiWord (state : VerbState) (line : VerbLine) (entry : VerbEntry) :
    VerbState × Option Skip :=
  match multiWordSurfaces line with
  | .error skip => (state, some skip)
  | .ok surfaces =>
    let unmarked := surfaces.filter fun surface => (multiWordPath? surface).isNone
    (state.addForms (surfaces.filterMap multiWordPath?) entry,
      if unmarked.isEmpty then none
      else some (.unmarkedForms (String.ofList line.verb) (unmarked.map String.ofList)))

/-- Stores a verb. Without a code of its own it has the code of its block. -/
def addVerb (state : VerbState) (body : List Char) (code? : Option String) (number : Nat) :
    VerbState × Option Skip :=
  match readVerbLine body with
  | .error skip => (state, some skip)
  | .ok line =>
    let verb := String.ofList line.verb
    let code := code?.getD state.blockCode
    let state := state.takePrimary ⟨verb, code, number⟩
    let entry : VerbEntry := ⟨state.anchor.getD verb, code, number⟩
    if line.verb.contains '_' then state.addMultiWord line entry
    else
      let paths := (surfaces line).map fun surface =>
        VerbDictionary.formPath (String.ofList surface)
      (state.addForms paths entry, none)

/-! ### Lines -/

inductive Item
  | member (synset : OpenSynset) (text : List Char)
  | header (code? : Option String)
  /-- A pattern, without its dash. -/
  | pattern (text : List Char) (code? : Option String)
  | synset (header : List Char)
  | verb (text : List Char) (code? : Option String)
deriving DecidableEq, Repr

/-- What a line that is not a member of an open synset is. -/
def entryItem (text : List Char) : Item :=
  let (body, code?) := splitCode text
  match body with
  | '-' :: '-' :: '-' :: _ => .header code?
  | '-' :: pattern => .pattern pattern code?
  | '&' :: _ => .synset body
  | _ => .verb body code?

/-- What a line is. While a synset is open, lines that start with `+` belong to it. -/
def item (state : VerbState) (line : Line) : Item :=
  match state.synset, trim line.text with
  | some synset, '+' :: member => .member synset member
  | _, text => entryItem text

def closeSynset (state : VerbState) : VerbState :=
  { state with synset := none }

/-- Opens a block. Its first verb becomes its primary. -/
def openBlock (state : VerbState) (code? : Option String) : VerbState :=
  { state with blockCode := code?.getD nullCode, awaitingPrimary := true }

/-- Handles one line. Any line but a member closes the open synset. -/
def handle (state : VerbState) (line : Line) : VerbState × Option Skip :=
  match state.item line with
  | .member synset text => orSkip state (state.addMember synset text)
  | .header code? => (state.closeSynset.openBlock code?, none)
  | .pattern text code? =>
    orSkip state.closeSynset (state.closeSynset.addPattern text code? line.number)
  | .synset header => orSkip state.closeSynset (state.closeSynset.openSynset header)
  | .verb text code? => state.closeSynset.addVerb text code? line.number

end VerbState

def VerbDictionary.compile (file : String) (script : Script) : Compilation VerbDictionary :=
  let (state, diagnostics) := handleLines VerbState.handle file .start script.lines
  { dictionary := state.dictionary, diagnostics, failedAfter := script.failedAfter }

end Codebook
