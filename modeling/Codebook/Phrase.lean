/-
This file reads phrases. In dictionaries a phrase is a row of tokens with underscores and white
space between them: an underscore asks for adjacent words, a separator run with white space in it
allows a gap. Main statement: the texts of the tokens are the runs of characters that do not
separate (`Phrase.texts_ofChars`).
-/

import Codebook.Path
import Codebook.Text.Pieces

namespace Codebook

open Text

/-- A token and the link written after it. The last token of a phrase that ends without a
separator is followed by a gap. -/
structure Token where
  text : String
  after : Link
deriving DecidableEq, Repr

/-- A row of tokens. `lead` is the link written before the first of them, if there is a separator
before it. -/
structure Phrase where
  lead : Option Link
  tokens : List Token
deriving DecidableEq, Repr

/-- Whether a character separates tokens. -/
def isSeparator (c : Char) : Bool :=
  c == '_' || isSpace c

namespace Phrase

/-! ### Reading -/

/-- The link of a single separator. -/
def linkOf (c : Char) : Link :=
  if isSpace c then .gap else .adjacent

/-- A run of separators is a gap as soon as one of them is. -/
def joinLinks : Link → Link → Link
  | .adjacent, .adjacent => .adjacent
  | _, _ => .gap

/-- A phrase while its characters are still being collected: the link of the separator run at its
start, and its tokens. -/
structure Draft where
  run : Option Link
  tokens : List (List Char × Link)

/-- Puts one more character before a draft. -/
def Draft.cons (c : Char) (draft : Draft) : Draft :=
  if isSeparator c then
    { draft with run := some (draft.run.elim (linkOf c) (joinLinks (linkOf c))) }
  else match draft.run, draft.tokens with
    | some link, tokens => ⟨none, ([c], link) :: tokens⟩
    | none, [] => ⟨none, [([c], .gap)]⟩
    | none, (text, after) :: tokens => ⟨none, (c :: text, after) :: tokens⟩

/-- The draft of a text, built from its end. -/
def draftOf (text : List Char) : Draft :=
  text.foldr Draft.cons ⟨none, []⟩

/-- Reads a phrase. A text without tokens has no lead either. -/
def ofChars (text : List Char) : Phrase :=
  let draft := draftOf text
  { lead := if draft.tokens.isEmpty then none else draft.run
    tokens := draft.tokens.map fun (text, after) => ⟨String.ofList text, after⟩ }

def ofText (text : String) : Phrase :=
  ofChars text.toList

/-- The words of a phrase, however they are joined. -/
def splitWords (text : List Char) : List String :=
  (runs isSeparator text).map String.ofList

/-- The pieces of a text are those of its draft: the tokens, with an empty piece in front exactly
if the text starts with a separator or is empty. -/
private theorem runs_eq_draft (text : List Char) :
    runs isSeparator text = (draftOf text).tokens.map (·.1) ∧
      ((draftOf text).run = none → (draftOf text).tokens ≠ [] →
        ∃ piece pieces', pieces isSeparator text = piece :: pieces' ∧ piece ≠ []) ∧
      ((draftOf text).run ≠ none ∨ (draftOf text).tokens = [] →
        ∃ pieces', pieces isSeparator text = [] :: pieces') := by
  induction text with
  | nil => simp [runs, pieces_nil, draftOf]
  | cons c rest inductionHypothesis =>
    obtain ⟨sameRuns, wordFirst, emptyFirst⟩ := inductionHypothesis
    have unfolded : draftOf (c :: rest) = (draftOf rest).cons c := rfl
    by_cases separates : isSeparator c = true
    · have shape : draftOf (c :: rest) =
          { draftOf rest with
            run := some ((draftOf rest).run.elim (linkOf c) (joinLinks (linkOf c))) } := by
        rw [unfolded, Draft.cons, if_pos separates]
      have cut : pieces isSeparator (c :: rest) = [] :: pieces isSeparator rest := by
        rw [pieces_cons, if_pos separates]
      refine ⟨?_, ?_, ?_⟩
      · rw [shape, ← sameRuns]
        simp [runs, cut]
      · simp [shape]
      · exact fun _ => ⟨_, cut⟩
    · have cut : pieces isSeparator (c :: rest) = consFirst c (pieces isSeparator rest) := by
        rw [pieces_cons, if_neg separates]
      have step : draftOf (c :: rest) = match (draftOf rest).run, (draftOf rest).tokens with
          | some link, tokens => ⟨none, ([c], link) :: tokens⟩
          | none, [] => ⟨none, [([c], .gap)]⟩
          | none, (text, after) :: tokens => ⟨none, (c :: text, after) :: tokens⟩ := by
        rw [unfolded, Draft.cons, if_neg separates]
      cases run : (draftOf rest).run with
      | some link =>
        obtain ⟨pieces', shape⟩ := emptyFirst (.inl (by simp [run]))
        have keep : runs isSeparator rest = pieces'.filter fun piece => !piece.isEmpty := by
          simp [runs, shape]
        simp only [run] at step
        rw [step, runs, cut, shape, consFirst]
        simp [← sameRuns, keep]
      | none =>
        cases tokens : (draftOf rest).tokens with
        | nil =>
          obtain ⟨pieces', shape⟩ := emptyFirst (.inr tokens)
          have keep : runs isSeparator rest = pieces'.filter fun piece => !piece.isEmpty := by
            simp [runs, shape]
          have none : runs isSeparator rest = [] := by rw [sameRuns, tokens]; rfl
          simp only [run, tokens] at step
          rw [step, runs, cut, shape, consFirst]
          simp [← keep, none]
        | cons token others =>
          obtain ⟨piece, pieces', shape, nonempty⟩ := wordFirst run (by simp [tokens])
          have keep : runs isSeparator rest =
              piece :: pieces'.filter fun piece => !piece.isEmpty := by
            simp [runs, shape, nonempty]
          have both : piece = token.1 ∧
              (pieces'.filter fun piece => !piece.isEmpty) = others.map (·.1) := by
            rw [keep, tokens] at sameRuns
            simpa using sameRuns
          simp only [run, tokens] at step
          rw [step, runs, cut, shape, consFirst]
          simp [both.1, both.2]

/-- The tokens of a phrase are its words. -/
theorem texts_ofChars (text : List Char) :
    (ofChars text).tokens.map (·.text) = splitWords text := by
  rw [splitWords, (runs_eq_draft text).1]
  simp [ofChars, Function.comp_def]

/-! ### Paths of a phrase -/

def isEmpty (phrase : Phrase) : Bool :=
  phrase.tokens.isEmpty

def first? (phrase : Phrase) : Option String :=
  phrase.tokens.head?.map (·.text)

/-- The step for a token that stands for itself: its word in upper case. -/
def literal (text : String) (link : Link) : Step :=
  .word (upper text) link

/-- The step for a token of a verb pattern: `&NAME` refers to a synset, `+`, `$` and `%` are slots,
anything else stands for itself. -/
def patternStep (text : String) (link : Link) : Step :=
  if text.toList.head? = some '&' then .token .synset (upper text) link
  else if text = "+" ∨ text = "$" ∨ text = "%" then .token .slot text link
  else literal text link

/-- The steps of `tokens` in reading order, when `link` joins the first of them to what stands
before it. -/
def forwardSteps (stepOf : String → Link → Step) (link : Link) : List Token → Path
  | [] => []
  | token :: rest => stepOf token.text link :: forwardSteps stepOf token.after rest

/-- The steps of a phrase that follows a token already on the path. -/
def forward (phrase : Phrase) (link : Link) (stepOf : String → Link → Step) : Path :=
  forwardSteps stepOf link phrase.tokens

/-- The steps of a phrase that precedes a token already on the path: the last token comes first,
and each carries the link to its right neighbour. -/
def backward (phrase : Phrase) (stepOf : String → Link → Step) : Path :=
  phrase.tokens.reverse.map fun token => stepOf token.text token.after

/-- The path of a phrase that is stored under its own first word. -/
def rooted (phrase : Phrase) : Path :=
  match phrase.tokens with
  | [] => []
  | first :: rest => .root (upper first.text) :: forwardSteps literal first.after rest

end Phrase

end Codebook
