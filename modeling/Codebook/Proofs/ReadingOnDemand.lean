/-
This file reads a file on demand. A call reads physical lines until one of them completes a cleaned
line, and what is kept from one call to the next is the lines that are left and the number of those
that have been counted (`LineSource.next`). A reader that holds all cleaned lines from the start
cannot be told from this (`LineReader.Mirrors.next`). Main statement: what comes out of a text of
complete lines that leaves no comment open does not depend on what is behind it, which is read as if
it stood alone, and the numbers of the cleaned lines say how far a text has been read
(`Script.reading_composes`).
-/

import Codebook.Proofs.GrowingFiles

namespace Codebook

/-! ### Scans that start at a line -/

/-- The line with `count` more lines above it. -/
def Line.shift (count : Nat) (line : Line) : Line :=
  { line with number := count + line.number }

/-- The event with `count` more lines above it. -/
def LineEvent.shift (count : Nat) : LineEvent → LineEvent
  | .line cleaned => .line (cleaned.shift count)
  | .undecodable after => .undecodable (count + after)

theorem LineEvent.shift_zero (event : LineEvent) : event.shift 0 = event := by
  cases event <;> simp [shift, Line.shift]

theorem LineEvent.line?_shift (count : Nat) (event : LineEvent) :
    (event.shift count).line? = event.line?.map (.shift count) := by
  cases event <;> rfl

/-- The number of physical lines that are counted. -/
def PhysicalLine.countOf (lines : List PhysicalLine) : Nat :=
  lines.countP (· ≠ .undecodable)

@[simp] theorem PhysicalLine.countOf_undecodable (rest : List PhysicalLine) :
    countOf (.undecodable :: rest) = countOf rest := by
  simp [countOf]

@[simp] theorem PhysicalLine.countOf_text (chars : List Char) (rest : List PhysicalLine) :
    countOf (.text chars :: rest) = countOf rest + 1 := by
  simp [countOf]

theorem PhysicalLine.countOf_eq_length {lines : List PhysicalLine}
    (decodable : .undecodable ∉ lines) : countOf lines = lines.length := by
  refine List.countP_eq_length.mpr fun line member => ?_
  simpa using ne_of_mem_of_not_mem member decodable

open PhysicalLine (countOf linesOfText)

namespace Scan

/-- The machine behind `counted` lines, with the comment that is open there. -/
def behind (comment : Comment) (counted : Nat) : Scan :=
  ⟨comment, counted, #[]⟩

/-- What comes out of physical lines depends on the open comment only, up to the numbers. -/
theorem eventsFrom_shift {scan shifted : Scan} {count : Nat}
    (comment : shifted.comment = scan.comment) (counted : shifted.counted = count + scan.counted)
    (lines : List PhysicalLine) :
    shifted.eventsFrom lines = (scan.eventsFrom lines).map (.shift count) := by
  induction lines generalizing scan shifted with
  | nil => rfl
  | cons line rest inductionHypothesis =>
    rw [eventsFrom, eventsFrom, List.map_append]
    cases line with
    | undecodable =>
      have same : (shifted.feed .undecodable).comment = (scan.feed .undecodable).comment := rfl
      rw [inductionHypothesis same counted]
      simp [event?, LineEvent.shift, counted]
    | text chars =>
      have next : (shifted.feed (.text chars)).comment = (scan.feed (.text chars)).comment := by
        simp [feed, comment]
      rw [inductionHypothesis next (congrArg Nat.succ counted)]
      cases completed : (scan.comment.clean chars).2 <;>
        simp [event?, comment, completed, counted, LineEvent.shift, Line.shift, Nat.add_assoc]

theorem eventsFrom_congr {scan other : Scan} (comment : other.comment = scan.comment)
    (counted : other.counted = scan.counted) (lines : List PhysicalLine) :
    other.eventsFrom lines = scan.eventsFrom lines := by
  rw [eventsFrom_shift comment (counted.trans (Nat.zero_add _).symm),
    List.map_congr_left fun event _ => event.shift_zero, List.map_id']

theorem eventsFrom_undecodable (comment : Comment) (counted : Nat) (rest : List PhysicalLine) :
    (behind comment counted).eventsFrom (.undecodable :: rest) =
      .undecodable counted :: (behind .outside counted).eventsFrom rest := by
  have next := @eventsFrom_congr (behind .outside counted)
    ((behind comment counted).feed .undecodable) rfl rfl rest
  rw [eventsFrom, next]
  rfl

theorem eventsFrom_text (comment : Comment) (counted : Nat) (chars : List Char)
    (rest : List PhysicalLine) :
    (behind comment counted).eventsFrom (.text chars :: rest) =
      ((comment.clean chars).2.map fun text => .line ⟨counted + 1, text⟩).toList ++
        (behind (comment.clean chars).1 (counted + 1)).eventsFrom rest := by
  have next := @eventsFrom_congr (behind (comment.clean chars).1 (counted + 1))
    ((behind comment counted).feed (.text chars)) rfl rfl rest
  rw [eventsFrom, next]
  rfl

theorem counted_feedAll (scan : Scan) (lines : List PhysicalLine) :
    (scan.feedAll lines).counted = scan.counted + countOf lines := by
  induction lines generalizing scan with
  | nil => rfl
  | cons line rest inductionHypothesis =>
    rw [feedAll, List.foldl_cons, ← feedAll, inductionHypothesis]
    cases line with
    | undecodable => rw [PhysicalLine.countOf_undecodable, feed]
    | text chars => rw [PhysicalLine.countOf_text, feed, Nat.add_right_comm, Nat.add_assoc]

end Scan

theorem Comment.cleanBody_outside_or (line : List Char) :
    (cleanBody line).1 = .outside ∨ (cleanBody line).2 = none := by
  unfold cleanBody
  dsimp only
  repeat' split
  all_goals first | exact .inl rfl | exact .inr rfl

/-- A physical line that completes a cleaned line leaves no comment open. -/
theorem Comment.clean_of_completed {comment : Comment} {chars text : List Char}
    (completed : (comment.clean chars).2 = some text) : (comment.clean chars).1 = .outside := by
  have either : (comment.clean chars).1 = .outside ∨ (comment.clean chars).2 = none := by
    unfold clean
    repeat' split
    all_goals first | exact cleanBody_outside_or _ | exact .inl rfl | exact .inr rfl
  exact either.resolve_right (by simp [completed])

/-! ### Calls -/

/-- A file that is read on demand: the number of the physical lines that have been counted, and
those that are left. -/
structure LineSource where
  number : Nat
  rest : List PhysicalLine
deriving DecidableEq, Repr

namespace LineSource

/-- Reads physical lines until one of them completes a cleaned line or cannot be decoded. At the end
there is neither, also if a comment is open there. -/
def pull (comment : Comment) (number : Nat) : List PhysicalLine → Option LineEvent × LineSource
  | [] => (none, ⟨number, []⟩)
  | .undecodable :: rest => (some (.undecodable number), ⟨number, rest⟩)
  | .text chars :: rest =>
    match comment.clean chars with
    | (_, some text) => (some (.line ⟨number + 1, text⟩), ⟨number + 1, rest⟩)
    | (left, none) => pull left (number + 1) rest

/-- A call always starts outside of comments. -/
def next (source : LineSource) : Option LineEvent × LineSource :=
  pull .outside source.number source.rest

/-- The source behind some calls. -/
def after (source : LineSource) : Nat → LineSource
  | 0 => source
  | count + 1 => source.next.2.after count

/-- The number of the physical lines that will have been counted at the end. -/
def total (source : LineSource) : Nat :=
  source.number + countOf source.rest

/-- What will come out. -/
def events (source : LineSource) : List LineEvent :=
  (Scan.behind .outside source.number).eventsFrom source.rest

/-- What a call comes to: the next event and the source behind it, or the end. -/
theorem pull_spec (comment : Comment) (number : Nat) (lines : List PhysicalLine) :
    match pull comment number lines with
    | (none, last) => (Scan.behind comment number).eventsFrom lines = [] ∧
        last = ⟨number + countOf lines, []⟩
    | (some event, later) =>
        (Scan.behind comment number).eventsFrom lines = event :: later.events ∧
          later.number = event.number ∧ later.total = number + countOf lines ∧
          later.rest <:+ lines := by
  fun_induction pull comment number lines with
  | case1 comment number => exact ⟨rfl, rfl⟩
  | case2 comment number rest =>
    refine ⟨Scan.eventsFrom_undecodable comment number rest, rfl, ?_, List.suffix_cons _ _⟩
    rw [PhysicalLine.countOf_undecodable, total]
  | case3 comment number chars rest left text completed =>
    have outside := Comment.clean_of_completed (congrArg Prod.snd completed)
    refine ⟨?_, rfl, ?_, List.suffix_cons _ _⟩
    · rw [Scan.eventsFrom_text, outside, completed]
      rfl
    · rw [PhysicalLine.countOf_text, total, Nat.add_right_comm, Nat.add_assoc]
  | case4 comment number chars rest left dropped inductionHypothesis =>
    have events : (Scan.behind comment number).eventsFrom (.text chars :: rest) =
        (Scan.behind left (number + 1)).eventsFrom rest := by
      rw [Scan.eventsFrom_text, dropped]
      rfl
    have counted : number + countOf (.text chars :: rest) = number + 1 + countOf rest := by
      rw [PhysicalLine.countOf_text, Nat.add_right_comm, Nat.add_assoc]
    rw [events, counted]
    split at inductionHypothesis
    next last call => exact inductionHypothesis
    next event later call =>
      obtain ⟨next, atEvent, counted, isSuffix⟩ := inductionHypothesis
      exact ⟨next, atEvent, counted, isSuffix.trans (List.suffix_cons _ _)⟩

/-- Calls give cleaned lines one after the other, each with the source behind it, up to the end. -/
inductive Calls : LineSource → List (Line × LineSource) → LineSource → Prop
  | ends {source last : LineSource} (call : source.next = (none, last)) : Calls source [] last
  | gives {source later last : LineSource} {line : Line} {others : List (Line × LineSource)}
    (call : source.next = (some (.line line), later)) (more : Calls later others last) :
    Calls source ((line, later) :: others) last

/-- What is left of a file is what is behind the lines that have been counted. -/
theorem eq_drop {whole : List PhysicalLine} (decodable : .undecodable ∉ whole)
    {source : LineSource} (isSuffix : source.rest <:+ whole)
    (counted : source.total = whole.length) :
    source = ⟨source.number, whole.drop source.number⟩ := by
  have left := PhysicalLine.countOf_eq_length fun member => decodable (isSuffix.subset member)
  rw [total, left] at counted
  have dropped := List.suffix_iff_eq_drop.mp isSuffix
  rw [← counted, Nat.add_sub_cancel] at dropped
  rw [← dropped]

/-- In a file whose lines can all be decoded the calls give all cleaned lines. Each is given when
the physical lines up to its number have been read. -/
theorem calls_of_decodable {whole : List PhysicalLine} (decodable : .undecodable ∉ whole)
    {source : LineSource} (isSuffix : source.rest <:+ whole)
    (counted : source.total = whole.length) :
    Calls source ((source.events.filterMap LineEvent.line?).map fun line =>
      (line, ⟨line.number, whole.drop line.number⟩)) ⟨whole.length, []⟩ := by
  generalize left : source.events = events
  induction events generalizing source with
  | nil =>
    have spec := pull_spec .outside source.number source.rest
    split at spec
    next last call =>
      obtain ⟨-, rfl⟩ := spec
      exact counted ▸ .ends call
    next event later call => exact nomatch left.symm.trans spec.1
  | cons event others inductionHypothesis =>
    have spec := pull_spec .outside source.number source.rest
    split at spec
    next last call => exact nomatch left.symm.trans spec.1
    next first later call =>
      obtain ⟨events, atEvent, laterCounted, laterSuffix⟩ := spec
      obtain ⟨rfl, rfl⟩ := List.cons.inj (left.symm.trans events)
      have laterInWhole := laterSuffix.trans isSuffix
      have laterTotal := laterCounted.trans counted
      have dropped := eq_drop decodable laterInWhole laterTotal
      have more := inductionHypothesis laterInWhole laterTotal rfl
      have failure := Scan.failure?_of_mem_eventsFrom
        (fun member => decodable (isSuffix.subset member)) event
        (left ▸ List.mem_cons_self : event ∈ source.events)
      cases event with
      | undecodable after => cases failure
      | line line =>
        have behind : later = ⟨line.number, whole.drop line.number⟩ := by
          rw [atEvent] at dropped
          exact dropped
        show Calls source ((line, ⟨line.number, whole.drop line.number⟩) :: _) _
        rw [← behind]
        exact .gives call more

end LineSource

/-! ### Readers -/

/-- The reader behind some calls. -/
def LineReader.after (reader : LineReader) : Nat → LineReader
  | 0 => reader
  | count + 1 => reader.next.2.after count

/-- Whether a reader that holds all its cleaned lines gives what a source gives. -/
structure LineReader.Mirrors (reader : LineReader) (source : LineSource) : Prop where
  pending : reader.pending = source.events
  number : reader.number = source.number
  total : reader.total = source.total

namespace LineReader.Mirrors

theorem ofLines (lines : List PhysicalLine) : (LineReader.ofLines lines).Mirrors ⟨0, lines⟩ where
  pending := Scan.events_feedAll .start lines
  number := rfl
  total := Scan.counted_feedAll .start lines

theorem next {reader : LineReader} {source : LineSource} (mirrors : reader.Mirrors source) :
    reader.next.1 = source.next.1 ∧ reader.next.2.Mirrors source.next.2 := by
  have spec := LineSource.pull_spec .outside source.number source.rest
  rw [LineReader.next, LineSource.next, mirrors.pending, LineSource.events]
  split at spec
  next last call =>
    obtain ⟨events, rfl⟩ := spec
    rw [events, call]
    exact ⟨rfl, ⟨rfl, mirrors.total, mirrors.total⟩⟩
  next event later call =>
    obtain ⟨events, atEvent, counted, -⟩ := spec
    rw [events, call]
    exact ⟨rfl, ⟨rfl, atEvent.symm, mirrors.total.trans counted.symm⟩⟩

theorem after {reader : LineReader} {source : LineSource} (mirrors : reader.Mirrors source)
    (count : Nat) : (reader.after count).Mirrors (source.after count) := by
  induction count generalizing reader source with
  | zero => exact mirrors
  | succ count inductionHypothesis => exact inductionHypothesis mirrors.next.2

end LineReader.Mirrors

/-! ### Texts -/

namespace Script

/-- The cleaned lines of a text are all that comes out of it. -/
theorem lines_ofText (text : String) :
    (ofText text).lines =
      (Scan.start.eventsFrom (linesOfText text.toList)).filterMap LineEvent.line? := by
  have isLine : ∀ event ∈ Scan.start.eventsFrom (linesOfText text.toList),
      event.line?.isSome = true := by
    intro event member
    have failure := Scan.failure?_of_mem_eventsFrom
      (PhysicalLine.undecodable_not_mem_linesOfText text.toList) event member
    cases event with
    | line cleaned => rfl
    | undecodable after => cases failure
  rw [ofText, PhysicalLine.linesOfBytes_toUTF8, lines_ofLines,
    List.takeWhile_eq_self_iff.mpr isLine]

/-- What comes out of complete lines that leave no comment open is followed by what comes out of
the rest alone, with the lines above counted. -/
theorem lines_ofText_append {front : String}
    (complete : ∀ last ∈ front.toList.getLast?, last = '\n')
    (outside : (Scan.start.feedAll (linesOfText front.toList)).comment = .outside)
    (back : String) :
    (ofText (front ++ back)).lines = (ofText front).lines ++
      (ofText back).lines.map (.shift (linesOfText front.toList).length) := by
  have counted : (Scan.start.feedAll (linesOfText front.toList)).counted =
      (linesOfText front.toList).length + Scan.start.counted := by
    rw [Scan.counted_feedAll, PhysicalLine.countOf_eq_length
      (PhysicalLine.undecodable_not_mem_linesOfText front.toList), Nat.add_comm]
  have behind := Scan.eventsFrom_shift outside counted (linesOfText back.toList)
  rw [lines_ofText, String.toList_append, PhysicalLine.linesOfText_append complete,
    Scan.eventsFrom_append, behind, List.filterMap_append, ← lines_ofText, List.filterMap_map,
    lines_ofText back, List.map_filterMap]
  refine congrArg _ (List.filterMap_congr fun event _ => ?_)
  exact event.line?_shift _

/-- Complete lines that leave no comment open are read as if nothing came behind them, and what
comes behind them as if it stood alone, up to the numbers. In every text the numbers of the cleaned
lines ascend, and the calls give these lines, each when the physical lines up to its number have
been read, and after them the end, when all have been. A reader that holds all cleaned lines from
the start gives the same at every call and counts the same. -/
theorem reading_composes :
    (∀ front : String, (∀ last ∈ front.toList.getLast?, last = '\n') →
      (Scan.start.feedAll (linesOfText front.toList)).comment = .outside →
      ∀ back : String, (ofText (front ++ back)).lines = (ofText front).lines ++
        (ofText back).lines.map (.shift (linesOfText front.toList).length)) ∧
    ∀ text : String, ((ofText text).lines.map (·.number)).Pairwise (· < ·) ∧
      LineSource.Calls ⟨0, linesOfText text.toList⟩
        ((ofText text).lines.map fun line =>
          (line, ⟨line.number, (linesOfText text.toList).drop line.number⟩))
        ⟨(linesOfText text.toList).length, []⟩ ∧
      ∀ count,
        ((LineReader.ofLines (linesOfText text.toList)).after count).next.1 =
            (LineSource.after ⟨0, linesOfText text.toList⟩ count).next.1 ∧
          ((LineReader.ofLines (linesOfText text.toList)).after count).number =
            (LineSource.after ⟨0, linesOfText text.toList⟩ count).number := by
  refine ⟨fun front complete outside back => lines_ofText_append complete outside back,
    fun text => ⟨numbers_ascend _, ?_, fun count => ?_⟩⟩
  · have decodable := PhysicalLine.undecodable_not_mem_linesOfText text.toList
    rw [lines_ofText]
    refine LineSource.calls_of_decodable decodable List.suffix_rfl ?_
    exact (Nat.zero_add _).trans (PhysicalLine.countOf_eq_length decodable)
  · have mirrors := (LineReader.Mirrors.ofLines (linesOfText text.toList)).after count
    exact ⟨mirrors.next.1, mirrors.number⟩

/-- Complete lines with a comment over two of them. -/
def upperText : String := "GRANT <!-- to\nbe --> [070]\n\nAID # often\n"

/-- Lines with a comment at the start of one, and with one that is left open. -/
def lowerText : String := "<!-- old\n--> LOAN\nGIFT <!-- open"

theorem lines_upperText_append :
    (∀ last ∈ upperText.toList.getLast?, last = '\n') ∧
      (Scan.start.feedAll (linesOfText upperText.toList)).comment = .outside ∧
      (ofText (upperText ++ lowerText)).lines =
        [⟨2, "GRANT  [070]".toList⟩, ⟨4, "AID".toList⟩, ⟨6, " LOAN".toList⟩] := by
  have ends : upperText.toList.getLast? = some '\n' := by decide +kernel
  have complete : ∀ last ∈ upperText.toList.getLast?, last = '\n' := by
    rw [ends]
    exact fun last same => (Option.some.inj same).symm
  have outside : (Scan.start.feedAll (linesOfText upperText.toList)).comment = .outside := by
    decide +kernel
  have upper : (ofText upperText).lines = [⟨2, "GRANT  [070]".toList⟩, ⟨4, "AID".toList⟩] := by
    decide +kernel
  have lower : (ofText lowerText).lines = [⟨2, " LOAN".toList⟩] := by decide +kernel
  have count : (linesOfText upperText.toList).length = 4 := by decide +kernel
  have whole := reading_composes.1 upperText complete outside lowerText
  rw [upper, lower, count] at whole
  exact ⟨complete, outside, whole⟩

end Script

end Codebook
