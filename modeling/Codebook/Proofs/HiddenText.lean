/-
This file says that a comment over several lines hides what stands in it. As long as a comment is
open, a line that does not close it does nothing but count, so that all that is left of the inside
of a comment is the number of its line breaks (`Scan.feedAll_commented`). Main statement: a file is
read alike whatever stands in a comment that is open at the end of its line
(`Script.hidden_text_has_no_influence`).
-/

import Codebook.Proofs.OpenComments

namespace Codebook

namespace Text

/-! ### Line ends -/

/-- A line that has ended comes before the others. -/
theorem linesBy_append_cons {Item : Type} {isBreak : Item → Bool} {line : List Item} {item : Item}
    (unbroken : ∀ item ∈ line, isBreak item = false) (breaks : isBreak item = true)
    (rest : List Item) : linesBy isBreak (line ++ item :: rest) = line :: linesBy isBreak rest := by
  have ended : linesBy isBreak (item :: rest) = [] :: linesBy isBreak rest := by
    rw [linesBy_cons, if_pos breaks]
  cases line with
  | nil => exact ended
  | cons first others =>
    rw [linesBy_append (List.cons_ne_nil _ _) unbroken, ended]
    simp

theorem isPrefix_dropEndWhile (drop : Char → Bool) (text : List Char) :
    dropEndWhile drop text <+: text := by
  obtain ⟨tail, shape, -⟩ := exists_append_dropEndWhile drop text
  exact ⟨tail, shape.symm⟩

end Text

open Text

namespace PhysicalLine

open Comment (opener closer opener_ne_nil closer_ne_nil)

theorem linesOfText_cons {line : List Char} (unbroken : '\n' ∉ line) (rest : List Char) :
    linesOfText (line ++ '\n' :: rest) = ofChars line :: linesOfText rest := by
  have noBreak : ∀ c ∈ line, (c == '\n') = false := fun c member =>
    beq_eq_false_iff_ne.mpr (ne_of_mem_of_not_mem member unbroken)
  rw [linesOfText, linesBy_append_cons noBreak (beq_self_eq_true '\n'), List.map_cons]
  rfl

/-- A text without line breaks belongs to the first line of what comes behind it. -/
theorem linesOfText_append_unbroken {part : List Char} (nonempty : part ≠ [])
    (unbroken : '\n' ∉ part) (rest : List Char) :
    linesOfText (part ++ rest) =
      ofChars (part ++ (linesBy (· == '\n') rest).headD []) ::
        (linesBy (· == '\n') rest).tail.map ofChars := by
  have noBreak : ∀ c ∈ part, (c == '\n') = false := fun c member =>
    beq_eq_false_iff_ne.mpr (ne_of_mem_of_not_mem member unbroken)
  rw [linesOfText, linesBy_append nonempty noBreak, List.map_cons]

/-- The carriage returns at the end of a line stand behind the opener on it. -/
theorem ofChars_opener (front hidden : List Char) :
    ofChars (front ++ (opener ++ hidden)) =
      .text (front ++ (opener ++ dropEndWhile (· == '\r') hidden)) :=
  congrArg text (dropEndWhile_append opener_ne_nil (by simp [opener]) front hidden)

theorem ofChars_closer (front tail : List Char) :
    ofChars (front ++ (closer ++ tail)) =
      .text (front ++ (closer ++ dropEndWhile (· == '\r') tail)) :=
  congrArg text (dropEndWhile_append closer_ne_nil (by simp [closer]) front tail)

/-- A line with an opener, at the end of a text or above other lines. -/
theorem linesOfText_opening {front hidden : List Char} (unbroken : '\n' ∉ front)
    (hiddenUnbroken : '\n' ∉ hidden) :
    linesOfText (front ++ (opener ++ hidden)) =
        [.text (front ++ (opener ++ dropEndWhile (· == '\r') hidden))] ∧
      ∀ rest, linesOfText (front ++ (opener ++ (hidden ++ '\n' :: rest))) =
        .text (front ++ (opener ++ dropEndWhile (· == '\r') hidden)) :: linesOfText rest := by
  have nonempty : front ++ (opener ++ hidden) ≠ [] :=
    List.append_ne_nil_of_right_ne_nil _ (List.append_ne_nil_of_left_ne_nil opener_ne_nil _)
  have oneLine : '\n' ∉ front ++ (opener ++ hidden) :=
    List.not_mem_append unbroken (List.not_mem_append (by decide) hiddenUnbroken)
  rw [← ofChars_opener]
  refine ⟨?_, fun rest => ?_⟩
  · have whole := linesOfText_append_unbroken nonempty oneLine []
    rwa [List.append_nil, linesBy, List.foldr_nil, List.headD_nil, List.append_nil] at whole
  · rw [← linesOfText_cons oneLine, List.append_assoc, List.append_assoc]

end PhysicalLine

open PhysicalLine (linesOfText)

/-! ### What an open comment hides -/

namespace Comment

theorem not_closer_nil : ¬ closer <:+: [] := fun found =>
  closer_ne_nil (List.eq_nil_of_infix_nil found)

theorem not_closer_parts {line rest : List Char} (unclosed : ¬ closer <:+: line ++ '\n' :: rest) :
    (¬ closer <:+: line) ∧ ¬ closer <:+: rest :=
  ⟨fun found => unclosed (found.trans (List.prefix_append _ _).isInfix),
    fun found => unclosed (found.trans
      ((List.suffix_cons _ _).trans (List.suffix_append _ _)).isInfix)⟩

theorem Opens.ne_outside {comment opened : Comment} {front : List Char}
    (opens : Opens comment front opened) : opened ≠ .outside := by
  cases opens <;> simp

variable {comment : Comment} {hidden : List Char}

/-- A line that does not close the open comment is hidden. -/
theorem clean_hidden (isOpen : comment ≠ .outside) (unclosed : ¬ closer <:+: hidden) :
    comment.clean hidden = (comment, none) := by
  cases comment with
  | outside => exact absurd rfl isOpen
  | leading | inline before => rw [clean, cutAt?_eq_none_iff.mpr unclosed]

/-- On the line that closes it, what stands before its end is hidden. -/
theorem clean_hidden_append (isOpen : comment ≠ .outside) (unclosed : ¬ closer <:+: hidden)
    (tail : List Char) : comment.clean (hidden ++ (closer ++ tail)) =
      comment.clean (closer ++ tail) := by
  have atStart := cutAt?_append closer_isUnbordered not_closer_nil tail
  rw [List.nil_append] at atStart
  cases comment with
  | outside => exact absurd rfl isOpen
  | leading | inline before =>
    rw [clean, clean, cutAt?_append closer_isUnbordered unclosed, atStart]

end Comment

namespace Scan

open Comment (opener closer Opens)

variable {scan : Scan}

/-- The machine behind some more lines from which nothing has come out. -/
def skip (scan : Scan) (count : Nat) : Scan :=
  { scan with counted := scan.counted + count }

/-- A line from which nothing comes out is counted and decides which comment is open behind it. -/
theorem feed_of_none {comment : Comment} {line : List Char}
    (read : scan.comment.clean line = (comment, none)) :
    scan.feed (.text line) = { scan.skip 1 with comment } := by
  rw [feed, read]
  rfl

/-- The lines of a comment are counted, up to the one that closes it. -/
theorem feedAll_hidden (isOpen : scan.comment ≠ .outside) {inside : List Char}
    (unclosed : ¬ closer <:+: inside) (below : List Char) :
    scan.feedAll (linesOfText (inside ++ (closer ++ below))) =
      (scan.skip (inside.count '\n')).feedAll (linesOfText (closer ++ below)) := by
  -- one line of the comment after the other, for as many line breaks as there are in it
  induction breaks : inside.count '\n' generalizing scan inside with
  | zero =>
    have unbroken : '\n' ∉ inside := List.count_eq_zero.mp breaks
    have closes {front : List Char} (noBreak : '\n' ∉ front) :=
      PhysicalLine.linesOfText_append_unbroken
        (List.append_ne_nil_of_right_ne_nil front Comment.closer_ne_nil)
        (List.not_mem_append noBreak (by decide)) below
    have own := closes unbroken
    have bare := closes (@List.not_mem_nil _ '\n')
    rw [List.append_assoc, List.append_assoc, PhysicalLine.ofChars_closer] at own bare
    rw [own, ← List.nil_append (closer ++ below), bare, feedAll, feedAll, List.foldl_cons,
      List.foldl_cons]
    congr 1
    rw [feed, feed, Comment.clean_hidden_append isOpen unclosed]
    rfl
  | succ count inductionHypothesis =>
    have broken : '\n' ∈ inside := List.count_pos_iff.mp (by omega)
    obtain ⟨line, rest, rfl, unbroken⟩ := List.eq_append_cons_of_mem broken
    obtain ⟨lineUnclosed, restUnclosed⟩ := Comment.not_closer_parts unclosed
    have shortUnclosed : ¬ closer <:+: dropEndWhile (· == '\r') line := fun found =>
      lineUnclosed (found.trans (isPrefix_dropEndWhile _ line).isInfix)
    have fewer : rest.count '\n' = count := by
      rw [List.count_append, List.count_eq_zero.mpr unbroken, List.count_cons_self] at breaks
      omega
    have step : scan.feed (PhysicalLine.ofChars line) = scan.skip 1 :=
      feed_of_none (Comment.clean_hidden isOpen shortUnclosed)
    rw [List.append_assoc, List.cons_append, PhysicalLine.linesOfText_cons unbroken, feedAll,
      List.foldl_cons, ← feedAll, step]
    have later := @inductionHypothesis (scan.skip 1) isOpen rest restUnclosed fewer
    rw [later, skip, skip, skip, Nat.add_assoc, Nat.add_comm 1]

/-- A line that opens a comment and does not close it leaves it open. -/
theorem feed_opened {opened : Comment} {front hidden : List Char}
    (opens : Opens scan.comment front opened) (unclosed : ¬ closer <:+: hidden) :
    scan.feed (.text (front ++ (opener ++ dropEndWhile (· == '\r') hidden))) =
      { scan.skip 1 with comment := opened } :=
  feed_of_none (opens.clean_eq fun found =>
    unclosed (found.trans (isPrefix_dropEndWhile _ hidden).isInfix))

/-- A comment that is opened on a line and closed on a later one leaves nothing behind but its
number of line breaks. -/
theorem feedAll_commented {opened : Comment} {front inside : List Char} (unbroken : '\n' ∉ front)
    (opens : Opens scan.comment front opened) (unclosed : ¬ closer <:+: inside)
    (broken : '\n' ∈ inside) (below : List Char) :
    scan.feedAll (linesOfText (front ++ (opener ++ (inside ++ (closer ++ below))))) =
      { scan.skip (inside.count '\n') with comment := opened }.feedAll
        (linesOfText (closer ++ below)) := by
  obtain ⟨hidden, rest, rfl, hiddenUnbroken⟩ := List.eq_append_cons_of_mem broken
  obtain ⟨hiddenUnclosed, restUnclosed⟩ := Comment.not_closer_parts unclosed
  have count : (hidden ++ '\n' :: rest).count '\n' = rest.count '\n' + 1 := by
    rw [List.count_append, List.count_eq_zero.mpr hiddenUnbroken, List.count_cons_self,
      Nat.zero_add]
  rw [List.append_assoc, List.cons_append,
    (PhysicalLine.linesOfText_opening unbroken hiddenUnbroken).2, feedAll, List.foldl_cons,
    ← feedAll, feed_opened opens hiddenUnclosed]
  have later := @feedAll_hidden { scan.skip 1 with comment := opened } opens.ne_outside rest
    restUnclosed below
  rw [later, count, skip, skip, skip, Nat.add_assoc, Nat.add_comm 1]

end Scan

namespace Script

open Comment (opener closer Opens)

/-- A text with a comment, and what stands before it on the line on which it is opened. -/
def commentedText (above front inside below : List Char) : String :=
  String.ofList (above ++ (front ++ (opener ++ (inside ++ (closer ++ below)))))

/-- A comment that is open at the end of a line, but was not open at its start, has its opener on
the line. An opener with a comment to be opened behind it leaves this comment open at the end of its
line if the comment is not closed there. Whatever else stands in the comment then, as many lines as
it has are counted and nothing of it comes out: the cleaned lines and their numbers depend on the
number of its line breaks only, and so does a reader at every call. -/
theorem hidden_text_has_no_influence :
    (∀ (comment : Comment) (line : List Char), (comment.clean line).1 ≠ .outside →
      (comment.clean line).1 ≠ comment → ∃ front hidden, line = front ++ (opener ++ hidden) ∧
        Opens comment front (comment.clean line).1) ∧
    ∀ {above front : List Char} {opened : Comment}, (∀ last ∈ above.getLast?, last = '\n') →
      '\n' ∉ front → Opens (Scan.start.feedAll (linesOfText above)).comment front opened →
      (∀ hidden, ¬ closer <:+: hidden → '\n' ∉ hidden → opened ≠ .outside ∧
        (Scan.start.feedAll (linesOfText (above ++ (front ++ (opener ++ hidden))))).comment =
          opened) ∧
      ∀ {inside other : List Char}, ¬ closer <:+: inside → ¬ closer <:+: other →
        '\n' ∈ inside → inside.count '\n' = other.count '\n' → ∀ below,
        ofText (commentedText above front inside below) =
            ofText (commentedText above front other below) ∧
          LineReader.ofLines (linesOfText (commentedText above front inside below).toList) =
            LineReader.ofLines (linesOfText (commentedText above front other below).toList) := by
  refine ⟨fun comment line => Comment.exists_opens, ?_⟩
  intro above front opened complete unbroken opens
  refine ⟨fun hidden unclosed hiddenUnbroken => ⟨opens.ne_outside, ?_⟩, ?_⟩
  · rw [PhysicalLine.linesOfText_append complete, Scan.feedAll_append,
      (PhysicalLine.linesOfText_opening unbroken hiddenUnbroken).1, Scan.feedAll, List.foldl_cons,
      Scan.feed_opened opens unclosed]
    rfl
  · intro inside other unclosed otherUnclosed broken sameBreaks below
    have otherBroken : '\n' ∈ other := by
      rw [← List.count_pos_iff, ← sameBreaks]
      exact List.count_pos_iff.mpr broken
    have alike : Scan.start.feedAll (linesOfText (commentedText above front inside below).toList) =
        Scan.start.feedAll (linesOfText (commentedText above front other below).toList) := by
      rw [commentedText, commentedText, String.toList_ofList, String.toList_ofList,
        PhysicalLine.linesOfText_append complete, PhysicalLine.linesOfText_append complete,
        Scan.feedAll_append, Scan.feedAll_append,
        Scan.feedAll_commented unbroken opens unclosed broken,
        Scan.feedAll_commented unbroken opens otherUnclosed otherBroken, sameBreaks]
    refine ⟨?_, ?_⟩
    · rw [ofText, ofText, PhysicalLine.linesOfBytes_toUTF8, PhysicalLine.linesOfBytes_toUTF8,
        ofLines, ofLines, alike]
    · rw [LineReader.ofLines, LineReader.ofLines, alike]

/-- Lines above a comment, what is written in it, and what comes behind it. -/
def aboveGift : List Char := "--- GRANT [070] ---\nGRANT\n".toList

def headerInside : List Char := " #1 <!--\n--- B [020]\n".toList

def belowGift : List Char := " [072] # late\nAID\n".toList

/-- A block header in a comment opens no block. -/
theorem hidden_header_has_no_influence :
    Opens (Scan.start.feedAll (linesOfText aboveGift)).comment "GIVE ".toList
        (.inline "GIVE ".toList) ∧
      ofText (commentedText aboveGift "GIVE ".toList headerInside belowGift) =
        ofText (commentedText aboveGift "GIVE ".toList ['\n', '\n'] belowGift) ∧
      (ofText (commentedText aboveGift "GIVE ".toList ['\n', '\n'] belowGift)).lines =
        [⟨1, "--- GRANT [070] ---".toList⟩, ⟨2, "GRANT".toList⟩, ⟨5, "GIVE  [072] # late".toList⟩,
          ⟨6, "AID".toList⟩] := by
  have outside : (Scan.start.feedAll (linesOfText aboveGift)).comment = .outside := by
    decide +kernel
  have entry : Comment.IsEntry "GIVE ".toList :=
    ⟨by decide +kernel, by decide +kernel, by decide +kernel, by decide +kernel⟩
  have opens : Opens (Scan.start.feedAll (linesOfText aboveGift)).comment "GIVE ".toList
      (.inline "GIVE ".toList) := by
    rw [outside]
    exact .inline .atStart entry
  have ends : aboveGift.getLast? = some '\n' := by decide +kernel
  have complete : ∀ last ∈ aboveGift.getLast?, last = '\n' := by
    rw [ends]
    exact fun last same => (Option.some.inj same).symm
  have unclosed : ¬ closer <:+: headerInside := by decide +kernel
  have otherUnclosed : ¬ closer <:+: ['\n', '\n'] := by decide +kernel
  have same := (hidden_text_has_no_influence.2 complete (by decide +kernel) opens).2 unclosed
    otherUnclosed (by decide +kernel) (by decide +kernel) belowGift
  exact ⟨opens, same.1, by decide +kernel⟩

end Script

end Codebook
