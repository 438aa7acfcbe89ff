/-
This file reads phrases in one pass and says what comes of it. A text has exactly one layout: words
without separators, a run of separators between any two of them, and perhaps a run in front of the
first word and one behind the last (`Phrase.Layout.ext_of_chars`). A reader that goes over the text
from left to right does not know a word until it has ended, nor the link of a separator run until
the next word has begun, so it writes links behind tokens that it has already put down. At every
point it knows the layout of what it has read (`Phrase.Reading.Fits.read`). Main statement: the
tokens of a phrase are the words of its layout, and the links are those of the separator runs
(`Phrase.tokens_follow_layout`).
-/

import Codebook.Proofs.PhraseLinks
import Mathlib.Data.List.ModifyLast

namespace Codebook

open Text

namespace Phrase

/-! ### The link of a separator run -/

/-- The link that a run of separators stands for. Where there is none at all, a word may come after
a gap. -/
def runLink (run : List Char) : Link :=
  if run = [] ∨ run.any isSpace then .gap else .adjacent

/-- The link of a run, if there is one. -/
def runLink? (run : List Char) : Option Link :=
  if run = [] then none else some (runLink run)

theorem runLink_nil : runLink [] = .gap :=
  if_pos (.inl rfl)

theorem runLink_singleton (c : Char) : runLink [c] = linkOf c := by
  simp [runLink, linkOf]

/-- A run put together from two others is a gap as soon as one of them is. -/
theorem runLink_append {left right : List Char} (leftNonempty : left ≠ [])
    (rightNonempty : right ≠ []) :
    runLink (left ++ right) = joinLinks (runLink left) (runLink right) := by
  simp only [runLink, List.append_eq_nil_iff, leftNonempty, rightNonempty, and_self, false_or,
    List.any_append, Bool.or_eq_true]
  by_cases leftGap : left.any isSpace = true
  · rw [if_pos (.inl leftGap), if_pos leftGap]
    rfl
  · by_cases rightGap : right.any isSpace = true
    · rw [if_pos (.inr rightGap), if_neg leftGap, if_pos rightGap]
      rfl
    · rw [if_neg (not_or.mpr ⟨leftGap, rightGap⟩), if_neg leftGap, if_neg rightGap]
      rfl

theorem runLink?_of_ne_nil {run : List Char} (nonempty : run ≠ []) :
    runLink? run = some (runLink run) :=
  if_neg nonempty

theorem runLink?_cons (c : Char) (run : List Char) :
    runLink? (c :: run) = some ((runLink? run).elim (linkOf c) (joinLinks (linkOf c))) := by
  rw [runLink?_of_ne_nil (List.cons_ne_nil c run)]
  cases run with
  | nil => exact congrArg some (runLink_singleton c)
  | cons d rest =>
    have together := runLink_append (List.cons_ne_nil c []) (List.cons_ne_nil d rest)
    rw [List.singleton_append, runLink_singleton] at together
    rw [together, runLink?_of_ne_nil (List.cons_ne_nil d rest), Option.elim_some]

theorem runLink?_concat (run : List Char) (c : Char) :
    runLink? (run ++ [c]) = some ((runLink? run).elim (linkOf c) (joinLinks · (linkOf c))) := by
  rw [runLink?_of_ne_nil (List.append_ne_nil_of_right_ne_nil run (List.cons_ne_nil c []))]
  cases run with
  | nil => exact congrArg some (runLink_singleton c)
  | cons d rest =>
    have together := runLink_append (List.cons_ne_nil d rest) (List.cons_ne_nil c [])
    rw [together, runLink_singleton, runLink?_of_ne_nil (List.cons_ne_nil d rest),
      Option.elim_some]

/-! ### Layouts -/

/-- A word of a text, with the separators behind it. -/
@[ext] structure Word where
  chars : List Char
  behind : List Char
  nonempty : chars ≠ []
  unseparated : ∀ c ∈ chars, isSeparator c = false
  separate : ∀ c ∈ behind, isSeparator c = true

/-- The words of a text and the separators in front of the first. Between two words there is a
separator, so behind the last word alone there may be none. -/
@[ext] structure Layout where
  front : List Char
  words : List Word
  separate : ∀ c ∈ front, isSeparator c = true
  apart : ∀ word ∈ words.dropLast, word.behind ≠ []

namespace Word

def whole (word : Word) : List Char :=
  word.chars ++ word.behind

/-- The token of a word has the link that the separators behind it stand for. -/
def token (word : Word) : Token :=
  ⟨String.ofList word.chars, runLink word.behind⟩

/-- A word of one character. -/
def ofChar {c : Char} (goesOn : isSeparator c = false) : Word :=
  ⟨[c], [], List.cons_ne_nil c [], List.forall_mem_singleton.mpr goesOn, by simp⟩

/-- The word with one more character. -/
def extended (word : Word) {c : Char} (goesOn : isSeparator c = false) : Word where
  chars := word.chars ++ [c]
  behind := word.behind
  nonempty := List.append_ne_nil_of_left_ne_nil word.nonempty [c]
  unseparated := List.forall_mem_append.mpr
    ⟨word.unseparated, List.forall_mem_singleton.mpr goesOn⟩
  separate := word.separate

/-- The word with one more separator behind it. -/
def separated (word : Word) {c : Char} (separates : isSeparator c = true) : Word where
  chars := word.chars
  behind := word.behind ++ [c]
  nonempty := word.nonempty
  unseparated := word.unseparated
  separate := List.forall_mem_append.mpr
    ⟨word.separate, List.forall_mem_singleton.mpr separates⟩

theorem behind_separated_ne_nil (word : Word) {c : Char} (separates : isSeparator c = true) :
    (word.separated separates).behind ≠ [] :=
  List.append_ne_nil_of_right_ne_nil word.behind (List.cons_ne_nil c [])

theorem runLink?_separated (word : Word) {c : Char} (separates : isSeparator c = true) :
    runLink? (word.separated separates).behind =
      some ((runLink? word.behind).elim (linkOf c) (joinLinks · (linkOf c))) :=
  runLink?_concat word.behind c

end Word

/-- No separator starts a row of words. -/
theorem head?_words (words : List Word) :
    ∀ c ∈ (words.flatMap Word.whole).head?, ¬ isSeparator c = true := by
  cases words with
  | nil => exact fun _ isFirst => absurd isFirst (Option.not_mem_none _)
  | cons word rest =>
    intro c isFirst
    rw [List.flatMap_cons, Word.whole, List.append_assoc,
      List.head?_append_of_ne_nil _ word.nonempty] at isFirst
    simp [word.unseparated c (List.mem_of_head? isFirst)]

/-- A word that has others behind it has a separator behind it. -/
theorem words_eq_nil_of_behind {word : Word} {rest : List Word}
    (apart : ∀ other ∈ (word :: rest).dropLast, other.behind ≠ []) (unended : word.behind = []) :
    rest = [] := by
  cases rest with
  | nil => rfl
  | cons next others => exact absurd unended (apart word List.mem_cons_self)

theorem apart_tail {word : Word} {rest : List Word}
    (apart : ∀ other ∈ (word :: rest).dropLast, other.behind ≠ []) :
    ∀ other ∈ rest.dropLast, other.behind ≠ [] := by
  cases rest with
  | nil => exact fun _ member => absurd member List.not_mem_nil
  | cons next others => exact fun other member => apart other (List.mem_cons_of_mem word member)

/-- What comes behind a word starts with a separator, unless nothing comes. -/
theorem head?_behind {word : Word} {rest : List Word}
    (apart : ∀ other ∈ (word :: rest).dropLast, other.behind ≠ []) :
    ∀ c ∈ (word.behind ++ rest.flatMap Word.whole).head?, ¬ isSeparator c = false := by
  intro c isFirst
  by_cases unended : word.behind = []
  · rw [unended, words_eq_nil_of_behind apart unended] at isFirst
    cases isFirst
  · rw [List.head?_append_of_ne_nil _ unended] at isFirst
    simp [word.separate c (List.mem_of_head? isFirst)]

/-- Two ways to cut a text at the end of its first stretch of characters of a kind are the same. -/
theorem append_inj_of_ends {isIn : Char → Prop} {left right leftRest rightRest : List Char}
    (same : left ++ leftRest = right ++ rightRest) (leftIn : ∀ c ∈ left, isIn c)
    (rightIn : ∀ c ∈ right, isIn c) (leftEnds : ∀ c ∈ leftRest.head?, ¬ isIn c)
    (rightEnds : ∀ c ∈ rightRest.head?, ¬ isIn c) : left = right ∧ leftRest = rightRest := by
  induction left generalizing right with
  | nil =>
    cases right with
    | nil => exact ⟨rfl, same⟩
    | cons c others =>
      rw [List.nil_append] at same
      exact absurd (rightIn c List.mem_cons_self) (leftEnds c (by rw [same]; rfl))
  | cons c rest inductionHypothesis =>
    obtain ⟨cIn, restIn⟩ := List.forall_mem_cons.mp leftIn
    cases right with
    | nil =>
      rw [List.nil_append] at same
      exact absurd cIn (rightEnds c (by rw [← same]; rfl))
    | cons d others =>
      obtain ⟨rfl, sameRest⟩ := List.cons.inj same
      obtain ⟨rfl, restSame⟩ := inductionHypothesis sameRest restIn
        (List.forall_mem_cons.mp rightIn).2
      exact ⟨rfl, restSame⟩

theorem words_inj {left right : List Word}
    (leftApart : ∀ word ∈ left.dropLast, word.behind ≠ [])
    (rightApart : ∀ word ∈ right.dropLast, word.behind ≠ [])
    (same : left.flatMap Word.whole = right.flatMap Word.whole) : left = right := by
  have nonempty (word : Word) (rest : List Word) : (word :: rest).flatMap Word.whole ≠ [] := by
    simp [Word.whole, word.nonempty]
  induction left generalizing right with
  | nil =>
    cases right with
    | nil => rfl
    | cons word rest => exact absurd same.symm (nonempty word rest)
  | cons word rest inductionHypothesis =>
    cases right with
    | nil => exact absurd same (nonempty word rest)
    | cons other others =>
      simp only [List.flatMap_cons, Word.whole, List.append_assoc] at same
      obtain ⟨sameChars, sameTail⟩ := append_inj_of_ends same word.unseparated other.unseparated
        (head?_behind leftApart) (head?_behind rightApart)
      obtain ⟨sameBehind, sameRest⟩ := append_inj_of_ends sameTail word.separate other.separate
        (head?_words rest) (head?_words others)
      rw [Word.ext sameChars sameBehind,
        inductionHypothesis (apart_tail leftApart) (apart_tail rightApart) sameRest]

namespace Layout

/-- The text with the given layout. -/
def chars (layout : Layout) : List Char :=
  layout.front ++ layout.words.flatMap Word.whole

/-- The layout of a text without words. -/
def wordless {front : List Char} (separate : ∀ c ∈ front, isSeparator c = true) : Layout :=
  ⟨front, [], separate, by simp⟩

/-- The layout with the given last word. -/
def closing {front : List Char} (separate : ∀ c ∈ front, isSeparator c = true) {done : List Word}
    (apart : ∀ word ∈ done, word.behind ≠ []) (last : Word) : Layout :=
  ⟨front, done ++ [last], separate, by rwa [List.dropLast_concat]⟩

section Closing

variable {front : List Char} (separate : ∀ c ∈ front, isSeparator c = true) {done : List Word}
  (apart : ∀ word ∈ done, word.behind ≠ []) {c : Char}

theorem chars_closing_separated (last : Word) (separates : isSeparator c = true) :
    (closing separate apart (last.separated separates)).chars =
      (closing separate apart last).chars ++ [c] := by
  simp [chars, closing, Word.whole, Word.separated]

theorem chars_closing_extended {last : Word} (goesOn : isSeparator c = false)
    (unended : last.behind = []) :
    (closing separate apart (last.extended goesOn)).chars =
      (closing separate apart last).chars ++ [c] := by
  simp [chars, closing, Word.whole, Word.extended, unended]

theorem chars_closing_ofChar (goesOn : isSeparator c = false) :
    (closing separate apart (.ofChar goesOn)).chars =
      front ++ done.flatMap Word.whole ++ [c] := by
  simp [chars, closing, Word.whole, Word.ofChar]

end Closing

/-- A text has one layout only. -/
theorem ext_of_chars {left right : Layout} (same : left.chars = right.chars) : left = right := by
  obtain ⟨sameFront, sameWords⟩ := append_inj_of_ends same left.separate right.separate
    (head?_words left.words) (head?_words right.words)
  exact Layout.ext sameFront (words_inj left.apart right.apart sameWords)

/-- The phrase that a layout comes to. -/
def phrase (layout : Layout) : Phrase where
  lead := if layout.words = [] then none else runLink? layout.front
  tokens := layout.words.map Word.token

end Layout

/-! ### Reading from the end -/

theorem draftOf_run_append {run back : List Char} (separate : ∀ c ∈ run, isSeparator c = true)
    (starts : (draftOf back).run = none) :
    draftOf (run ++ back) = ⟨runLink? run, (draftOf back).tokens⟩ := by
  induction run with
  | nil =>
    show draftOf back = ⟨none, _⟩
    rw [← starts]
  | cons c rest inductionHypothesis =>
    obtain ⟨separates, restSeparate⟩ := List.forall_mem_cons.mp separate
    rw [List.cons_append, draftOf_cons, inductionHypothesis restSeparate,
      Draft.cons_of_separator separates, runLink?_cons]

theorem draftOf_words {words : List Word} (apart : ∀ word ∈ words.dropLast, word.behind ≠ []) :
    draftOf (words.flatMap Word.whole) =
      ⟨none, words.map fun word => (word.chars, runLink word.behind)⟩ := by
  induction words with
  | nil => rfl
  | cons word rest inductionHypothesis =>
    have restDraft := inductionHypothesis (apart_tail apart)
    rw [List.flatMap_cons, Word.whole, List.append_assoc,
      draftOf_word_append word.nonempty word.unseparated,
      draftOf_run_append word.separate (by rw [restDraft]), restDraft]
    by_cases unended : word.behind = []
    · rw [words_eq_nil_of_behind apart unended, unended, List.map_singleton, unended, runLink_nil]
      rfl
    · rw [runLink?_of_ne_nil unended]
      rfl

/-- Whatever has a layout is read as the layout says. -/
theorem ofChars_layout (layout : Layout) : ofChars layout.chars = layout.phrase := by
  have wordsDraft := draftOf_words layout.apart
  have draft : draftOf layout.chars = _ :=
    draftOf_run_append layout.separate (by rw [wordsDraft])
  simp [ofChars, draft, wordsDraft, Layout.phrase, Word.token, Function.comp_def]

/-! ### Reading in one pass -/

/-- A reader in the middle of a text: the link in front of the first token, the tokens that have
been put down, the characters of the word it is in, and the link of the separator run it is in. -/
structure Reading where
  lead : Option Link
  tokens : List Token
  word : List Char
  run : Option Link

namespace Reading

def start : Reading :=
  ⟨none, [], [], none⟩

/-- Puts down the word that has been read, if there is one. Its link is not known yet. -/
def putWord (reading : Reading) : Reading :=
  if reading.word = [] then reading
  else { reading with tokens := reading.tokens ++ [⟨String.ofList reading.word, .gap⟩], word := [] }

/-- Writes the link of the separator run, if there is one, behind the last token, or in front of the
first word. -/
def putLink (reading : Reading) : Reading :=
  match reading.run with
  | none => reading
  | some link =>
    if reading.tokens = [] then { reading with lead := some link, run := none }
    else
      { reading with tokens := reading.tokens.modifyLast ({ · with after := link }), run := none }

/-- Reads one more character. -/
def read (reading : Reading) (c : Char) : Reading :=
  if isSeparator c then
    { reading.putWord with run := some (reading.run.elim (linkOf c) (joinLinks · (linkOf c))) }
  else { reading.putLink with word := reading.word ++ [c] }

/-- The phrase that has been read when the text ends. A run behind the last token is its link, and a
run without any token counts for nothing. -/
def finish (reading : Reading) : Phrase :=
  if reading.word ≠ [] then ⟨reading.lead, reading.putWord.tokens⟩
  else if reading.tokens = [] then ⟨reading.lead, []⟩
  else ⟨reading.lead, reading.putLink.tokens⟩

/-- What a reader knows of a text with the given layout: it is still in front of the first word, or
in the last word, or behind it. -/
inductive Fits : Reading → Layout → Prop
  | inFront {front : List Char} (separate : ∀ c ∈ front, isSeparator c = true) :
    Fits ⟨none, [], [], runLink? front⟩ (.wordless separate)
  | inWord {front : List Char} (separate : ∀ c ∈ front, isSeparator c = true) {done : List Word}
    (apart : ∀ word ∈ done, word.behind ≠ []) {last : Word} (unended : last.behind = []) :
    Fits ⟨runLink? front, done.map Word.token, last.chars, none⟩ (.closing separate apart last)
  | behindWord {front : List Char} (separate : ∀ c ∈ front, isSeparator c = true)
    {done : List Word} (apart : ∀ word ∈ done, word.behind ≠ []) {last : Word}
    (ended : last.behind ≠ []) :
    Fits ⟨runLink? front, done.map Word.token ++ [⟨String.ofList last.chars, .gap⟩], [],
      runLink? last.behind⟩ (.closing separate apart last)

variable {reading : Reading} {layout : Layout} {c : Char}

theorem read_of_separator (separates : isSeparator c = true) (reading : Reading) :
    reading.read c =
      { reading.putWord with
        run := some (reading.run.elim (linkOf c) (joinLinks · (linkOf c))) } :=
  if_pos separates

theorem read_of_unseparated (goesOn : isSeparator c = false) (reading : Reading) :
    reading.read c = { reading.putLink with word := reading.word ++ [c] } := by
  rw [read, goesOn, if_neg Bool.false_ne_true]

/-- Before the first token the link of the run is the one in front. -/
theorem putLink_front (word : List Char) (run : Option Link) :
    putLink ⟨none, [], word, run⟩ = ⟨run, [], word, none⟩ := by
  cases run <;> rfl

/-- Behind a token the link of the run goes to that token. -/
theorem putLink_concat (lead : Option Link) (front : List Token) (last : Token) (word : List Char)
    (link : Link) :
    putLink ⟨lead, front ++ [last], word, some link⟩ =
      ⟨lead, front ++ [{ last with after := link }], word, none⟩ := by
  simp [putLink, List.modifyLast_concat]

/-- A separator ends the word, or it makes a run longer. -/
theorem Fits.read_separator (fits : Fits reading layout) (separates : isSeparator c = true) :
    ∃ longer : Layout, longer.chars = layout.chars ++ [c] ∧ Fits (reading.read c) longer := by
  rw [read_of_separator separates]
  cases fits with
  | @inFront front separate =>
    have longerSeparate : ∀ d ∈ front ++ [c], isSeparator d = true :=
      List.forall_mem_append.mpr ⟨separate, List.forall_mem_singleton.mpr separates⟩
    have longer := Fits.inFront longerSeparate
    rw [runLink?_concat] at longer
    exact ⟨.wordless longerSeparate, by simp [Layout.chars, Layout.wordless], longer⟩
  | @inWord front separate done apart last unended =>
    have longer := Fits.behindWord separate apart (last.behind_separated_ne_nil separates)
    rw [last.runLink?_separated separates, unended] at longer
    refine ⟨_, Layout.chars_closing_separated separate apart last separates, ?_⟩
    rw [putWord, if_neg last.nonempty]
    exact longer
  | @behindWord front separate done apart last ended =>
    have longer := Fits.behindWord separate apart (last.behind_separated_ne_nil separates)
    rw [last.runLink?_separated separates] at longer
    exact ⟨_, Layout.chars_closing_separated separate apart last separates, longer⟩

/-- Any other character makes a word longer, or it starts a word and settles the link before it. -/
theorem Fits.read_unseparated (fits : Fits reading layout) (goesOn : isSeparator c = false) :
    ∃ longer : Layout, longer.chars = layout.chars ++ [c] ∧ Fits (reading.read c) longer := by
  rw [read_of_unseparated goesOn]
  cases fits with
  | @inFront front separate =>
    have unended : (Word.ofChar goesOn).behind = [] := rfl
    have longer := Fits.inWord separate (List.forall_mem_nil _) unended
    refine ⟨_, Layout.chars_closing_ofChar separate (List.forall_mem_nil _) goesOn, ?_⟩
    rw [putLink_front]
    exact longer
  | @inWord front separate done apart last unended =>
    have stillUnended : (last.extended goesOn).behind = [] := unended
    have longer := Fits.inWord separate apart stillUnended
    exact ⟨_, Layout.chars_closing_extended separate apart goesOn unended, longer⟩
  | @behindWord front separate done apart last ended =>
    have allEnded : ∀ word ∈ done ++ [last], word.behind ≠ [] :=
      List.forall_mem_append.mpr ⟨apart, List.forall_mem_singleton.mpr ended⟩
    have unended : (Word.ofChar goesOn).behind = [] := rfl
    have longer := Fits.inWord separate allEnded unended
    rw [List.map_append, List.map_singleton] at longer
    refine ⟨_, Layout.chars_closing_ofChar separate allEnded goesOn, ?_⟩
    rw [runLink?_of_ne_nil ended, putLink_concat]
    exact longer

/-- Whatever has been read, the reader knows its layout. -/
theorem exists_fits_foldl (text : List Char) :
    ∃ layout : Layout, layout.chars = text ∧ Fits (text.foldl read start) layout := by
  induction text using List.reverseRecOn with
  | nil => exact ⟨.wordless (List.forall_mem_nil _), rfl, .inFront (List.forall_mem_nil _)⟩
  | append_singleton front c inductionHypothesis =>
    obtain ⟨layout, rfl, fits⟩ := inductionHypothesis
    rw [List.foldl_append]
    cases separates : isSeparator c with
    | true => exact fits.read_separator separates
    | false => exact fits.read_unseparated separates

/-- At the end of the text the reader has read what the layout comes to. -/
theorem Fits.finish_eq (fits : Fits reading layout) : reading.finish = layout.phrase := by
  cases fits with
  | inFront separate => rfl
  | @inWord front separate done apart last unended =>
    rw [finish, if_pos last.nonempty, putWord, if_neg last.nonempty]
    simp [Layout.phrase, Layout.closing, Word.token, unended, runLink_nil]
  | @behindWord front separate done apart last ended =>
    rw [finish, runLink?_of_ne_nil ended, putLink_concat]
    simp [Layout.phrase, Layout.closing, Word.token]

end Reading

/-! ### The tokens of a phrase -/

/-- The phrase that a reader comes to who goes over the text from its start to its end. -/
def readInOnePass (text : List Char) : Phrase :=
  (text.foldl Reading.read .start).finish

/-- A text has one layout, and the tokens of its phrase are the words there, each with the link of
the separators behind it. The phrase has a link in front if there are separators before the first
word, and there is such a word. Reading in one pass comes to the same phrase. -/
theorem tokens_follow_layout (text : List Char) :
    ∃ layout : Layout,
      layout.chars = text ∧ (∀ other : Layout, other.chars = text → other = layout) ∧
        (ofChars text).tokens.map (·.text) = splitWords text ∧
        splitWords text = layout.words.map (fun word => String.ofList word.chars) ∧
        (ofChars text).tokens.map (·.after) = layout.words.map (fun word => runLink word.behind) ∧
        (ofChars text).lead = (if layout.words = [] then none else runLink? layout.front) ∧
        readInOnePass text = ofChars text := by
  obtain ⟨layout, rfl, fits⟩ := Reading.exists_fits_foldl text
  have phrase := ofChars_layout layout
  refine ⟨layout, rfl, fun other same => Layout.ext_of_chars same, texts_ofChars _, ?_, ?_, ?_, ?_⟩
  · rw [← texts_ofChars, phrase, Layout.phrase, List.map_map]
    rfl
  · rw [phrase, Layout.phrase, List.map_map]
    rfl
  · rw [phrase, Layout.phrase]
  · rw [readInOnePass, fits.finish_eq, phrase]

/-- One blank makes a gap of all the separators around it. -/
example :
    readInOnePass "_ FOREIGN_MINISTER OF _STATE_".toList =
      ⟨some .gap,
        [⟨"FOREIGN", .adjacent⟩, ⟨"MINISTER", .gap⟩, ⟨"OF", .gap⟩, ⟨"STATE", .adjacent⟩]⟩ := by
  decide +kernel

end Phrase

end Codebook
