/-
This file says what may be relied on about the lines that come out of a file: they are not blank,
they have no white space at their end and no line feed in them. Nor is there a `#` in them, with one
exception: a line that is cut short by a comment goes on behind the end of the comment, and if this
is on a line below, what stands there has not been cut (`Spliced`). Main statement: there are no
other exceptions (`Script.lines_are_clean`).
-/

import Codebook.Proofs.HiddenText

namespace Codebook

namespace Text

/-! ### Trimmed texts -/

variable {text : List Char}

/-- Trimming loses white space only. -/
theorem mem_trimEnd_iff {c : Char} (notSpace : isSpace c = false) :
    c ∈ trimEnd text ↔ c ∈ text := by
  obtain ⟨tail, shape, blank⟩ := exists_append_dropEndWhile isSpace text
  constructor
  · intro member
    rw [shape]
    exact List.mem_append_left _ member
  · intro member
    rw [shape, List.mem_append] at member
    refine member.resolve_right fun inTail => ?_
    rw [blank c inTail] at notSpace
    cases notSpace

theorem isBlank_trimEnd (visible : isBlank text = false) : isBlank (trimEnd text) = false := by
  obtain ⟨c, member, notSpace⟩ := List.all_eq_false.mp visible
  have notSpace : isSpace c = false := by simpa using notSpace
  exact List.all_eq_false.mpr ⟨c, (mem_trimEnd_iff notSpace).mpr member, by simp [notSpace]⟩

/-- A line holds no break. -/
theorem unbroken_of_mem_linesBy {Item : Type} {isBreak : Item → Bool} {items line : List Item}
    (member : line ∈ linesBy isBreak items) : ∀ item ∈ line, isBreak item = false := by
  induction items generalizing line with
  | nil => exact absurd member List.not_mem_nil
  | cons first rest inductionHypothesis =>
    rw [linesBy_cons] at member
    split at member
    next =>
      rcases List.mem_cons.mp member with rfl | later
      · exact fun _ inEmpty => absurd inEmpty List.not_mem_nil
      · exact inductionHypothesis later
    next goesOn =>
      rcases List.mem_cons.mp member with rfl | later
      · refine List.forall_mem_cons.mpr ⟨by simpa using goesOn, fun item inFirst => ?_⟩
        cases shape : linesBy isBreak rest with
        | nil =>
          rw [shape] at inFirst
          exact absurd inFirst List.not_mem_nil
        | cons next others =>
          rw [shape] at inFirst
          have isNext : next ∈ linesBy isBreak rest := by
            rw [shape]
            exact List.mem_cons_self
          exact inductionHypothesis isNext item inFirst
      · exact inductionHypothesis (List.mem_of_mem_tail later)

end Text

open Text

/-- What can be decoded are the bytes of a text. -/
theorem utf8_of_fromUTF8? {bytes : List UInt8} {text : String}
    (decodes : String.fromUTF8? ⟨bytes.toArray⟩ = some text) : Codec.utf8 text = bytes := by
  unfold String.fromUTF8? at decodes
  split at decodes
  next =>
    obtain rfl := Option.some.inj decodes
    exact List.toList_toArray
  next => cases decodes

/-- The text of a physical line holds no line feed. -/
theorem PhysicalLine.not_mem_of_mem_linesOfBytes {contents : ByteArray} {chars : List Char}
    (member : .text chars ∈ linesOfBytes contents) : '\n' ∉ chars := by
  obtain ⟨bytes, isLine, decoded⟩ := List.mem_map.mp member
  intro inChars
  rw [ofBytes] at decoded
  split at decoded
  next whole decodes =>
    obtain rfl := text.inj decoded
    have inText : '\n' ∈ whole.toList := (isPrefix_dropEndWhile _ _).subset inChars
    have inBytes : 10 ∈ bytes := by
      have bytes := utf8_ofList whole.toList
      rw [String.ofList_toList] at bytes
      rw [← utf8_of_fromUTF8? decodes, bytes]
      exact List.mem_flatMap.mpr ⟨'\n', inText, List.mem_singleton.mpr rfl⟩
    have noBreak := unbroken_of_mem_linesBy isLine 10 inBytes
    exact absurd (beq_self_eq_true (10 : UInt8)) (by rw [noBreak]; exact Bool.false_ne_true)
  next => cases decoded

/-! ### What is kept of a line -/

namespace Comment

theorem keepText_eq_some {line text : List Char} (kept : keepText line = some text) :
    isBlank line = false ∧ trimEnd line = text := by
  rw [keepText] at kept
  split at kept
  next => cases kept
  next visible => exact ⟨by simpa using visible, Option.some.inj kept⟩

/-- A comment behind an entry keeps the text before it, which stands on its line and has been cut.
-/
theorem Opens.of_inline {comment : Comment} {front before : List Char}
    (opens : Opens comment front (.inline before)) : before ⊆ front ∧ IsEntry before := by
  cases opens with
  | inline starts entry => exact ⟨List.subset_append_right _ _, entry⟩

end Comment

open Comment (opener closer Opens)

/-! ### Lines that go on behind a comment -/

/-- Whether a cleaned line goes on behind the end of a comment on a line below: `before` stands
before the comment, which is behind other text on the line on which it is opened and is open at the
end of this line, and `tail` stands behind its end. -/
inductive Spliced : List PhysicalLine → Line → List Char → List Char → Prop
  | intro {above below : List PhysicalLine} {between : List (List Char)}
    {front hidden last before tail : List Char}
    (opens : Opens (Scan.start.feedAll above).comment front (.inline before))
    (isOpen : (Scan.start.feedAll above).comment.clean (front ++ (opener ++ hidden)) =
      (.inline before, none))
    (unclosed : ∀ chars ∈ between, ¬ closer <:+: chars) (lastUnclosed : ¬ closer <:+: last) :
    Spliced (above ++ .text (front ++ (opener ++ hidden)) ::
        (between.map .text ++ .text (last ++ (closer ++ tail)) :: below))
      ⟨PhysicalLine.countOf above + between.length + 2, trimEnd (before ++ tail)⟩ before tail

/-- What may be relied on about a line that comes out of a file. -/
structure IsClean (lines : List PhysicalLine) (line : Line) : Prop where
  visible : isBlank line.text = false
  trimmed : ∀ last ∈ line.text.getLast?, isSpace last = false
  oneLine : '\n' ∉ line.text
  /-- There is a `#` only behind the end of a comment that goes over several lines. -/
  uncut : '#' ∈ line.text ↔
    ∃ before tail, Spliced lines line before tail ∧ '#' ∉ before ∧ '#' ∈ tail

namespace Scan

/-- A comment behind an entry that is open at the end of some lines has been opened on one of them,
and none of those below closes it. -/
theorem exists_opening {lines : List PhysicalLine} {before : List Char}
    (isOpen : (start.feedAll lines).comment = .inline before) :
    ∃ (above : List PhysicalLine) (front hidden : List Char) (between : List (List Char)),
      lines = above ++ .text (front ++ (opener ++ hidden)) :: between.map .text ∧
      Opens (start.feedAll above).comment front (.inline before) ∧
      (start.feedAll above).comment.clean (front ++ (opener ++ hidden)) = (.inline before, none) ∧
      ∀ chars ∈ between, ¬ closer <:+: chars := by
  induction lines using List.reverseRecOn with
  | nil => cases isOpen
  | append_singleton above line inductionHypothesis =>
    rw [feedAll_append] at isOpen
    cases line with
    | undecodable => cases isOpen
    | text chars =>
      have isOpen : ((start.feedAll above).comment.clean chars).1 = .inline before := isOpen
      have read := (start.feedAll above).comment.cleans chars
      generalize result : (start.feedAll above).comment.clean chars = cleaned at read isOpen
      generalize here : (start.feedAll above).comment = comment at read result
      cases read with
      | goesOn _ unclosed =>
        obtain ⟨earlier, front, hidden, between, rfl, opens, leftOpen, stillOpen⟩ :=
          inductionHypothesis (here.trans isOpen)
        refine ⟨earlier, front, hidden, between ++ [chars], by simp, opens, leftOpen, ?_⟩
        exact List.forall_mem_append.mpr ⟨stillOpen, by simpa using unclosed⟩
      | closes => cases isOpen
      | @opens _ opened front opens hidden =>
        obtain rfl : opened = .inline before := isOpen
        exact ⟨above, front, hidden, [], rfl, here ▸ opens, here ▸ result, by simp⟩
      | keeps => cases isOpen

/-- A cleaned line comes out of the physical line that completes it. -/
theorem exists_completing {scan : Scan} {lines : List PhysicalLine} {line : Line}
    (member : .line line ∈ scan.eventsFrom lines) :
    ∃ above chars below, lines = above ++ .text chars :: below ∧
      line.number = (scan.feedAll above).counted + 1 ∧
      ((scan.feedAll above).comment.clean chars).2 = some line.text := by
  induction lines generalizing scan with
  | nil => exact absurd member List.not_mem_nil
  | cons first rest inductionHypothesis =>
    rcases List.mem_append.mp member with here | later
    · cases first with
      | undecodable => simp [event?] at here
      | text chars =>
        obtain ⟨text, completed, same⟩ := Option.map_eq_some_iff.mp (Option.mem_toList.mp here)
        obtain rfl := LineEvent.line.inj same
        exact ⟨[], chars, rest, rfl, rfl, completed⟩
    · obtain ⟨above, chars, below, rfl, number, completed⟩ := inductionHypothesis later
      exact ⟨first :: above, chars, below, rfl, number, completed⟩

end Scan

theorem Spliced.text_eq {lines : List PhysicalLine} {line : Line} {before tail : List Char}
    (spliced : Spliced lines line before tail) : line.text = trimEnd (before ++ tail) := by
  cases spliced with
  | intro => rfl

/-- A comment that is open above a line which closes it makes the line go on with what stood before
the comment. -/
theorem Scan.spliced {above : List PhysicalLine} {before hidden tail : List Char} {line : Line}
    (isOpen : (start.feedAll above).comment = .inline before) (unclosed : ¬ closer <:+: hidden)
    (number : line.number = (start.feedAll above).counted + 1)
    (trimmed : trimEnd (before ++ tail) = line.text) (below : List PhysicalLine) :
    Spliced (above ++ .text (hidden ++ (closer ++ tail)) :: below) line before tail := by
  obtain ⟨earlier, front, opening, between, rfl, opens, leftOpen, stillOpen⟩ :=
    exists_opening isOpen
  have counted : line.number = PhysicalLine.countOf earlier + between.length + 2 := by
    have between : PhysicalLine.countOf (between.map .text) = between.length := by
      rw [PhysicalLine.countOf_eq_length (by simp), List.length_map]
    have none : start.counted = 0 := rfl
    rw [number, counted_feedAll, none, PhysicalLine.countOf, List.countP_append,
      ← PhysicalLine.countOf, ← PhysicalLine.countOf, PhysicalLine.countOf_text, between]
    omega
  have same : line = ⟨PhysicalLine.countOf earlier + between.length + 2,
      trimEnd (before ++ tail)⟩ := by
    rw [trimmed, ← counted]
  rw [same, List.append_assoc]
  exact .intro opens leftOpen stillOpen unclosed

/-- What is kept of a text is clean as far as the text is. -/
theorem IsClean.of_keepText {lines : List PhysicalLine} {line : Line} {whole : List Char}
    (kept : Comment.keepText whole = some line.text) (oneLine : '\n' ∉ whole)
    (uncut : '#' ∈ whole → ∃ before tail, Spliced lines line before tail ∧ '#' ∉ before ∧
      '#' ∈ tail) : IsClean lines line := by
  obtain ⟨visible, trimmed⟩ := Comment.keepText_eq_some kept
  have part : line.text ⊆ whole := trimmed ▸ (isPrefix_dropEndWhile _ whole).subset
  refine ⟨?_, ?_, fun member => oneLine (part member), fun member => uncut (part member), ?_⟩
  · rw [← trimmed]
    exact isBlank_trimEnd visible
  · rw [← trimmed]
    exact not_drop_getLast?_dropEndWhile isSpace whole
  · rintro ⟨before, tail, spliced, -, inTail⟩
    rw [spliced.text_eq]
    exact (mem_trimEnd_iff (by decide)).mpr (List.mem_append_right _ inTail)

/-- Every line that comes out of a file is clean. -/
theorem IsClean.of_mem_eventsFrom {contents : ByteArray} {line : Line}
    (member : .line line ∈ Scan.start.eventsFrom (PhysicalLine.linesOfBytes contents)) :
    IsClean (PhysicalLine.linesOfBytes contents) line := by
  have noBreak {chars : List Char} := @PhysicalLine.not_mem_of_mem_linesOfBytes contents chars
  generalize PhysicalLine.linesOfBytes contents = lines at member noBreak ⊢
  obtain ⟨above, chars, below, rfl, number, completed⟩ := Scan.exists_completing member
  have ownNoBreak : '\n' ∉ chars := noBreak (by simp)
  have read := (Scan.start.feedAll above).comment.cleans chars
  generalize (Scan.start.feedAll above).comment.clean chars = cleaned at read completed
  generalize here : (Scan.start.feedAll above).comment = comment at read
  cases read with
  | goesOn => cases completed
  | opens => cases completed
  | keeps part uncut =>
    exact .of_keepText completed (fun inKept => ownNoBreak (part inKept))
      fun cut => absurd cut uncut
  | @closes before hidden unclosed tail =>
    obtain ⟨earlier, front, opening, between, shape, opens, -⟩ := Scan.exists_opening here
    obtain ⟨part, entry⟩ := opens.of_inline
    have beforeNoBreak : '\n' ∉ before := by
      have openingNoBreak : '\n' ∉ front ++ (opener ++ opening) := noBreak (by simp [shape])
      exact fun inBefore => openingNoBreak (List.mem_append_left _ (part inBefore))
    have tailNoBreak : '\n' ∉ tail := fun inTail => ownNoBreak (by simp [inTail])
    have spliced := Scan.spliced here unclosed number (Comment.keepText_eq_some completed).2
    refine .of_keepText completed (List.not_mem_append beforeNoBreak tailNoBreak) fun cut => ?_
    exact ⟨before, tail, spliced below, entry.uncut,
      (List.mem_append.mp cut).resolve_left entry.uncut⟩

/-! ### Readers and compilers -/

/-- Calls take what is left one event at a time. -/
theorem LineReader.pending_after (reader : LineReader) (count : Nat) :
    (reader.after count).pending = reader.pending.drop count := by
  induction count generalizing reader with
  | zero => rfl
  | succ count inductionHypothesis =>
    have one : reader.next.2.pending = reader.pending.drop 1 := by
      rw [next]
      split
      next none => simp [none]
      next event rest shape => simp [shape]
    rw [after, inductionHypothesis, one, List.drop_drop, Nat.add_comm]

theorem LineReader.mem_of_next {lines : List PhysicalLine} {count : Nat} {event : LineEvent}
    (call : ((ofLines lines).after count).next.1 = some event) :
    event ∈ Scan.start.eventsFrom lines := by
  have pending : (ofLines lines).pending = Scan.start.eventsFrom lines :=
    (Mirrors.ofLines lines).pending
  rw [next] at call
  split at call
  next => cases call
  next first rest shape =>
    obtain rfl := Option.some.inj call
    rw [pending_after, pending] at shape
    exact List.mem_of_mem_drop (shape ▸ List.mem_cons_self)

namespace Script

/-- Every line that a reader returns, at whichever call, and every line that a compiler gets to see
is clean, whatever the bytes of the file: it is not blank, has no white space at its end and no line
feed in it, and there is a `#` in it exactly if there is one behind the end of a comment that was
opened behind other text and closed on a line below. -/
theorem lines_are_clean (contents : ByteArray) :
    (∀ count line,
      ((LineReader.ofLines (PhysicalLine.linesOfBytes contents)).after count).next.1 =
        some (.line line) → IsClean (PhysicalLine.linesOfBytes contents) line) ∧
    ∀ line ∈ (ofLines (PhysicalLine.linesOfBytes contents)).lines,
      IsClean (PhysicalLine.linesOfBytes contents) line := by
  refine ⟨fun count line call => .of_mem_eventsFrom (LineReader.mem_of_next call), ?_⟩
  intro line member
  obtain ⟨event, isEvent, isLine⟩ := List.mem_filterMap.mp ((lines_sublist _).subset member)
  cases event with
  | undecodable => cases isLine
  | line other =>
    obtain rfl := Option.some.inj isLine
    exact .of_mem_eventsFrom isEvent

/-- A line that goes on behind a comment, with a `#` there. -/
def splicedText : String := "GIVE <!-- to\nbe --> TO # OFTEN\n"

/-- Behind the end of a comment a `#` does not cut the line. -/
theorem spliced_line_is_clean :
    (ofText splicedText).lines = [⟨2, "GIVE  TO # OFTEN".toList⟩] ∧
      IsClean (PhysicalLine.linesOfBytes splicedText.toUTF8) ⟨2, "GIVE  TO # OFTEN".toList⟩ ∧
      ∃ before tail, Spliced (PhysicalLine.linesOfBytes splicedText.toUTF8)
        ⟨2, "GIVE  TO # OFTEN".toList⟩ before tail ∧ '#' ∉ before ∧ '#' ∈ tail := by
  have read : (ofText splicedText).lines = [⟨2, "GIVE  TO # OFTEN".toList⟩] := by decide +kernel
  have member : ⟨2, "GIVE  TO # OFTEN".toList⟩ ∈ (ofText splicedText).lines := by
    rw [read]
    exact List.mem_cons_self
  have isClean := (lines_are_clean splicedText.toUTF8).2 _ member
  exact ⟨read, isClean, isClean.uncut.mp (by decide +kernel)⟩

end Script

end Codebook
