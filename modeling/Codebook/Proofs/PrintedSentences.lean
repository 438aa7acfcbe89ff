/-
This file says what is printed for the sentences of a story. Each is printed without the white space
around it and with a line feed behind it, so that it makes one line only if there is no line feed
left inside. Main statement: the sentences stand on one line each, and are read back from these
lines, exactly if something is left of every one of them and none has a line feed inside
(`CommandLine.segment_prints_lines_iff`); stories that have one sentence on each line are printed
so, and others need not be.
-/

import Codebook.CommandLine.Run
import Codebook.Proofs.HiddenText
import Codebook.Proofs.WordRuns

namespace Codebook

open Text

namespace Sentences

/-! ### Lines with a sentence on each -/

theorem ofLines_nil : ofLines [] = [] := rfl

/-- Lines are taken for sentences independently. -/
theorem ofLines_append (front back : List Char) :
    ofLines (front ++ '\n' :: back) = ofLines front ++ ofLines back := by
  have cut := @pieces_append (· == '\n') '\n' rfl front back
  rw [ofLines, cut, List.map_append, List.filter_append]
  rfl

/-- Whether a sentence can stand on a line of its own: something is left of it without the white
space around it, and there is no line feed in what is left. -/
def FitsOnLine (sentence : List Char) : Prop :=
  trim sentence ≠ [] ∧ '\n' ∉ trim sentence

instance : DecidablePred FitsOnLine := fun sentence =>
  inferInstanceAs (Decidable (trim sentence ≠ [] ∧ '\n' ∉ trim sentence))

/-- A sentence that is found on a line stands alone, and on a line. -/
theorem of_mem_ofLines {text sentence : List Char} (member : sentence ∈ ofLines text) :
    trim sentence = sentence ∧ FitsOnLine sentence := by
  obtain ⟨isTrimmed, nonempty⟩ := List.mem_filter.mp member
  obtain ⟨line, isLine, rfl⟩ := List.mem_map.mp isTrimmed
  have noBreak := not_sep_of_mem_pieces isLine
  rw [FitsOnLine, trim_trim]
  refine ⟨rfl, by simpa using nonempty, fun lineFeed => ?_⟩
  exact Bool.false_ne_true (noBreak '\n' (trim_subset line lineFeed)).symm

theorem ofLines_trim {sentence : List Char} (fits : FitsOnLine sentence) :
    ofLines (trim sentence) = [trim sentence] := by
  have noBreak : ∀ c ∈ trim sentence, (c == '\n') = false := fun c member =>
    beq_eq_false_iff_ne.mpr (ne_of_mem_of_not_mem member fits.2)
  rw [ofLines, pieces_of_unseparated noBreak, List.map_singleton, trim_trim]
  exact List.filter_cons_of_pos (by simpa using fits.1)

end Sentences

namespace CommandLine

open Sentences

/-! ### What is printed -/

theorem toList_sentenceLines (sentences : List (List Char)) :
    (sentenceLines sentences).toList =
      sentences.flatMap fun sentence => trim sentence ++ ['\n'] := by
  simp [sentenceLines, Report.unlines, String.toList_join, List.flatMap_map]

/-- What is read back of printed sentences is what is read back of each. -/
theorem ofLines_sentenceLines (sentences : List (List Char)) :
    ofLines (sentenceLines sentences).toList =
      sentences.flatMap fun sentence => ofLines (trim sentence) := by
  rw [toList_sentenceLines]
  induction sentences with
  | nil => rfl
  | cons sentence others inductionHypothesis =>
    rw [List.flatMap_cons, List.flatMap_cons, List.append_assoc, List.singleton_append,
      ofLines_append, inductionHypothesis]

/-- A text that ends with a line feed has as many lines as line feeds. -/
theorem length_linesBy_lineFeed (text rest : List Char) :
    (linesBy (· == '\n') (text ++ '\n' :: rest)).length =
      text.count '\n' + 1 + (linesBy (· == '\n') rest).length := by
  induction text with
  | nil => rw [List.nil_append, linesBy_cons, if_pos (beq_self_eq_true '\n'),
      List.length_cons, List.count_nil, Nat.zero_add, Nat.add_comm]
  | cons c text inductionHypothesis =>
    rw [List.cons_append, linesBy_cons, List.count_cons]
    split
    next isBreak => rw [List.length_cons, inductionHypothesis]; omega
    next => rw [List.length_cons, List.length_tail, inductionHypothesis]; omega

/-- Printed sentences take as many lines as there are sentences, and one more for every line feed
inside of them. -/
theorem length_linesBy_sentenceLines (sentences : List (List Char)) :
    (linesBy (· == '\n') (sentenceLines sentences).toList).length =
      sentences.length + (sentences.flatMap trim).count '\n' := by
  rw [toList_sentenceLines]
  induction sentences with
  | nil => rfl
  | cons sentence others inductionHypothesis =>
    rw [List.flatMap_cons, List.append_assoc, List.singleton_append, length_linesBy_lineFeed,
      inductionHypothesis, List.length_cons, List.flatMap_cons, List.count_append]
    omega

/-- There is a line for each sentence exactly if none has a line feed inside. -/
theorem length_linesBy_sentenceLines_eq_iff (sentences : List (List Char)) :
    (linesBy (· == '\n') (sentenceLines sentences).toList).length = sentences.length ↔
      ∀ sentence ∈ sentences, '\n' ∉ trim sentence := by
  rw [length_linesBy_sentenceLines, Nat.add_eq_left, List.count_eq_zero]
  simp

/-- Then the line of each is the sentence itself. -/
theorem linesBy_sentenceLines {sentences : List (List Char)}
    (noBreaks : ∀ sentence ∈ sentences, '\n' ∉ trim sentence) :
    linesBy (· == '\n') (sentenceLines sentences).toList = sentences.map trim := by
  rw [toList_sentenceLines]
  induction sentences with
  | nil => rfl
  | cons sentence others inductionHypothesis =>
    obtain ⟨noBreak, noBreaks⟩ := List.forall_mem_cons.mp noBreaks
    have unbroken : ∀ c ∈ trim sentence, (c == '\n') = false := fun c member =>
      beq_eq_false_iff_ne.mpr (ne_of_mem_of_not_mem member noBreak)
    rw [List.flatMap_cons, List.append_assoc, List.singleton_append,
      linesBy_append_cons unbroken rfl, inductionHypothesis noBreaks, List.map_cons]

/-- Sentences that fit on lines are read back. -/
theorem ofLines_sentenceLines_eq_iff (sentences : List (List Char)) :
    ofLines (sentenceLines sentences).toList = sentences.map trim ↔
      ∀ sentence ∈ sentences, FitsOnLine sentence := by
  rw [ofLines_sentenceLines]
  constructor
  · intro same sentence member
    have found : trim sentence ∈ sentences.flatMap fun sentence => ofLines (trim sentence) := by
      rw [same]
      exact List.mem_map_of_mem member
    obtain ⟨other, -, onLine⟩ := List.mem_flatMap.mp found
    have fits := (of_mem_ofLines onLine).2
    rwa [FitsOnLine, trim_trim] at fits
  · intro fit
    rw [List.map_eq_flatMap]
    exact List.flatMap_congr fun sentence member => ofLines_trim (fit sentence member)

/-! ### Stories -/

section Command

variable {m : Type → Type} [Monad m]

/-- The bounds a command asks for, and whether it takes the story to have one sentence on each line:
the standard ones and what its flag says, or those of its configuration, which may say so too. -/
inductive AsksFor (files : FileAccess m) (flag : Bool) : Option String → LengthBounds → Bool → Prop
  | standard : AsksFor files flag none .standard flag
  | configured {name : String} {config : Config}
    (isConfig : files.readConfig name = pure (.ok config)) :
    AsksFor files flag (some name) config.bounds (flag || config.onePerLine)

variable [LawfulMonad m] {files : FileAccess m} {file story : String} {bounds : LengthBounds}
  {onePerLine : Bool} {sentences : List (List Char)}

theorem splitStory_eq (isStory : files.readStory file = pure (.ok story))
    (split : ofInput bounds onePerLine story.toList = .ok sentences) :
    splitStory files bounds onePerLine file = pure (.success (sentenceLines sentences)) := by
  rw [splitStory, isStory, pure_bind]
  dsimp only
  rw [split]

/-- What a story comes to is printed, whoever keeps the files. -/
theorem runSegment_eq {configFile : Option String} {flag : Bool}
    (asksFor : AsksFor files flag configFile bounds onePerLine)
    (isStory : files.readStory file = pure (.ok story))
    (split : ofInput bounds onePerLine story.toList = .ok sentences) :
    runSegment files configFile flag file = pure (.success (sentenceLines sentences)) := by
  cases asksFor with
  | standard => exact splitStory_eq isStory split
  | configured isConfig =>
    rw [runSegment, isConfig, pure_bind]
    exact splitStory_eq isStory split

end Command

/-- The sentences of a story that can be split are printed, for whoever keeps the files. They take
one line each exactly if none has a line feed inside, and are read back as the sentences of a story
that has one on each line exactly if, besides, something is left of each without the white space
around it. Sentences that were read so can be read back. -/
theorem segment_prints_lines_iff {bounds : LengthBounds} {onePerLine : Bool} {story : String}
    {sentences : List (List Char)}
    (split : ofInput bounds onePerLine story.toList = .ok sentences) :
    (∀ {m : Type → Type} [Monad m] [LawfulMonad m] (files : FileAccess m)
        (configFile : Option String) (flag : Bool) (file : String),
        AsksFor files flag configFile bounds onePerLine →
          files.readStory file = pure (.ok story) →
            (Command.segment configFile flag file).run files =
              pure (.success (sentenceLines sentences))) ∧
      ((linesBy (· == '\n') (sentenceLines sentences).toList).length = sentences.length ↔
        ∀ sentence ∈ sentences, '\n' ∉ trim sentence) ∧
      (linesBy (· == '\n') (sentenceLines sentences).toList = sentences.map trim ↔
        ∀ sentence ∈ sentences, '\n' ∉ trim sentence) ∧
      (∀ others : LengthBounds,
        ofInput others true (sentenceLines sentences).toList = .ok (sentences.map trim) ↔
          ∀ sentence ∈ sentences, FitsOnLine sentence) ∧
      (onePerLine = true → ∀ sentence ∈ sentences, FitsOnLine sentence) := by
  refine ⟨fun files configFile flag file asksFor isStory => runSegment_eq asksFor isStory split,
    length_linesBy_sentenceLines_eq_iff sentences, ⟨fun same => ?_, linesBy_sentenceLines⟩,
    fun others => ?_, ?_⟩
  · rw [← length_linesBy_sentenceLines_eq_iff, same, List.length_map]
  · rw [ofInput, if_pos rfl, Except.ok.injEq, ofLines_sentenceLines_eq_iff]
  · rintro rfl sentence member
    obtain rfl : ofLines story.toList = sentences := by
      rwa [ofInput, if_pos rfl, Except.ok.injEq] at split
    exact (of_mem_ofLines member).2

/-- Two sentences with a line feed behind the first: they are printed on two lines and found
there. -/
theorem segment_prints_arrivals :
    ofInput ⟨0, 512⟩ false "He came.\n She did not.".toList =
        .ok ["He came.\n".toList, "She did not.".toList] ∧
      linesBy (· == '\n') (sentenceLines ["He came.\n".toList, "She did not.".toList]).toList =
        ["He came.".toList, "She did not.".toList] ∧
      ofInput .standard true
          (sentenceLines ["He came.\n".toList, "She did not.".toList]).toList =
        .ok ["He came.".toList, "She did not.".toList] := by
  have split : ofInput ⟨0, 512⟩ false "He came.\n She did not.".toList =
      .ok ["He came.\n".toList, "She did not.".toList] := by decide +kernel
  have fit : ∀ sentence ∈ ["He came.\n".toList, "She did not.".toList],
      FitsOnLine sentence := by decide +kernel
  obtain ⟨-, -, onLines, readBack, -⟩ := segment_prints_lines_iff split
  refine ⟨split, ?_, ?_⟩
  · rw [onLines.mpr fun sentence member => (fit sentence member).2]
    decide +kernel
  · rw [(readBack .standard).mpr fit]
    decide +kernel

/-- A story that goes on to a second line in its only sentence. -/
def wrappedStory : String :=
  "The ministers of the two neighbouring countries met in the capital on Monday and\n" ++
    "agreed to open the border again before the end of the month."

/-- It is one sentence and is printed on two lines, which are read back as two sentences. -/
theorem wrappedStory_takes_two_lines :
    ofInput .standard false wrappedStory.toList = .ok [wrappedStory.toList] ∧
      (linesBy (· == '\n') (sentenceLines [wrappedStory.toList]).toList).length = 2 ∧
      ofInput .standard true (sentenceLines [wrappedStory.toList]).toList ≠
        .ok ([wrappedStory.toList].map trim) := by
  refine ⟨by decide +kernel, ?_, ?_⟩
  · rw [length_linesBy_sentenceLines]
    decide +kernel
  · rw [ofInput, if_pos rfl, ne_eq, Except.ok.injEq, ofLines_sentenceLines_eq_iff]
    decide +kernel

end CommandLine

end Codebook
