/-
This file says that a dictionary file is read in order. A physical line completes at most one
cleaned line, and what has come out of the lines above stays as it is. So the cleaned lines of a
file that goes on start with those it has had before (`Script.lines_prefix_of_append`), and their
numbers ascend (`Script.numbers_ascend`). Every cleaned line in turn leaves at most one diagnostic
behind, which bears its number (`lineOf_handleLines_sublist`).
-/

import Codebook.Compilation
import Mathlib.Data.List.TakeWhile

namespace Codebook

/-! ### What comes out of physical lines -/

namespace Scan

/-- What comes out of a physical line. -/
def event? (scan : Scan) : PhysicalLine → Option LineEvent
  | .undecodable => some (.undecodable scan.counted)
  | .text chars => (scan.comment.clean chars).2.map fun text => .line ⟨scan.counted + 1, text⟩

/-- What comes out of some physical lines. -/
def eventsFrom (scan : Scan) : List PhysicalLine → List LineEvent
  | [] => []
  | line :: rest => (scan.event? line).toList ++ (scan.feed line).eventsFrom rest

theorem events_feed (scan : Scan) (line : PhysicalLine) :
    (scan.feed line).events.toList = scan.events.toList ++ (scan.event? line).toList := by
  cases line with
  | undecodable => simp [feed, event?]
  | text chars =>
    simp only [feed, event?]
    cases (scan.comment.clean chars).2 <;> simp

theorem events_feedAll (scan : Scan) (lines : List PhysicalLine) :
    (scan.feedAll lines).events.toList = scan.events.toList ++ scan.eventsFrom lines := by
  induction lines generalizing scan with
  | nil => exact (List.append_nil _).symm
  | cons line rest inductionHypothesis =>
    rw [feedAll, List.foldl_cons, ← feedAll, inductionHypothesis, events_feed, eventsFrom,
      List.append_assoc]

theorem eventsFrom_append (scan : Scan) (front back : List PhysicalLine) :
    scan.eventsFrom (front ++ back) =
      scan.eventsFrom front ++ (scan.feedAll front).eventsFrom back := by
  induction front generalizing scan with
  | nil => rfl
  | cons line rest inductionHypothesis =>
    rw [List.cons_append, eventsFrom, inductionHypothesis, eventsFrom, List.append_assoc]
    rfl

/-- Only a line that cannot be decoded makes reading fail. -/
theorem failure?_of_mem_eventsFrom {scan : Scan} {lines : List PhysicalLine}
    (decodable : .undecodable ∉ lines) :
    ∀ event ∈ scan.eventsFrom lines, event.failure? = none := by
  induction lines generalizing scan with
  | nil => exact fun _ member => absurd member List.not_mem_nil
  | cons line rest inductionHypothesis =>
    intro event member
    rcases List.mem_append.mp member with first | later
    · cases line with
      | undecodable => exact absurd List.mem_cons_self decodable
      | text chars =>
        obtain ⟨text, -, rfl⟩ := Option.map_eq_some_iff.mp (Option.mem_toList.mp first)
        rfl
    · exact inductionHypothesis (List.not_mem_of_not_mem_cons decodable) event later

/-- Cleaned lines are numbered upward, at most one for every physical line. -/
structure Numbers (above : Nat) (lines : List PhysicalLine) (cleaned : List Line) : Prop where
  ascend : (cleaned.map (·.number)).Pairwise (· < ·)
  inRange : ∀ line ∈ cleaned, above < line.number ∧ line.number ≤ above + lines.length

namespace Numbers

variable {above : Nat} {line : PhysicalLine} {rest : List PhysicalLine} {cleaned : List Line}

/-- The cleaned lines may all come out of the lines below. -/
theorem below {later : Nat} (numbers : Numbers later rest cleaned) (atLeast : above ≤ later)
    (atMost : later ≤ above + 1) : Numbers above (line :: rest) cleaned where
  ascend := numbers.ascend
  inRange other member := by
    obtain ⟨behind, before⟩ := numbers.inRange other member
    rw [List.length_cons]
    omega

/-- A physical line that completes a cleaned line gives it its number. -/
theorem cons (numbers : Numbers (above + 1) rest cleaned) (text : List Char) :
    Numbers above (line :: rest) (⟨above + 1, text⟩ :: cleaned) where
  ascend := by
    rw [List.map_cons, List.pairwise_cons, List.forall_mem_map]
    exact ⟨fun other member => (numbers.inRange other member).1, numbers.ascend⟩
  inRange := by
    refine List.forall_mem_cons.mpr ⟨?_, (numbers.below (Nat.le_succ above) (Nat.le_refl _)).inRange⟩
    show above < above + 1 ∧ above + 1 ≤ above + (rest.length + 1)
    omega

end Numbers

theorem numbers_eventsFrom (scan : Scan) (lines : List PhysicalLine) :
    Numbers scan.counted lines ((scan.eventsFrom lines).filterMap LineEvent.line?) := by
  induction lines generalizing scan with
  | nil => exact ⟨.nil, fun _ member => absurd member List.not_mem_nil⟩
  | cons line rest inductionHypothesis =>
    have numbers := inductionHypothesis (scan.feed line)
    rw [eventsFrom, List.filterMap_append]
    cases line with
    | undecodable => exact numbers.below (Nat.le_refl _) (Nat.le_succ _)
    | text chars =>
      rw [event?]
      cases (scan.comment.clean chars).2 with
      | none => exact numbers.below (Nat.le_succ _) (Nat.le_refl _)
      | some text => exact numbers.cons text

end Scan

/-! ### Scripts -/

namespace Script

theorem lines_ofLines (lines : List PhysicalLine) :
    (ofLines lines).lines =
      ((Scan.start.eventsFrom lines).takeWhile fun event => event.line?.isSome).filterMap
        LineEvent.line? := by
  simp [ofLines, Scan.events_feedAll, Scan.start]

theorem failedAfter_ofLines (lines : List PhysicalLine) :
    (ofLines lines).failedAfter = (Scan.start.eventsFrom lines).findSome? LineEvent.failure? := by
  simp [ofLines, Scan.events_feedAll, Scan.start]

/-- A file whose lines can all be decoded is read to its end. -/
theorem failedAfter_ofLines_eq_none {lines : List PhysicalLine} (decodable : .undecodable ∉ lines) :
    (ofLines lines).failedAfter = none := by
  rw [failedAfter_ofLines, List.findSome?_eq_none_iff]
  exact Scan.failure?_of_mem_eventsFrom decodable

/-- The cleaned lines of a file that is read to its end stay the first ones when it goes on. -/
theorem lines_prefix_of_append {front : List PhysicalLine}
    (complete : (ofLines front).failedAfter = none) (back : List PhysicalLine) :
    (ofLines front).lines <+: (ofLines (front ++ back)).lines := by
  rw [failedAfter_ofLines, List.findSome?_eq_none_iff] at complete
  have isLine : ∀ event ∈ Scan.start.eventsFrom front, event.line?.isSome = true := by
    intro event member
    cases event with
    | line cleaned => rfl
    | undecodable after => cases complete _ member
  rw [lines_ofLines, lines_ofLines, Scan.eventsFrom_append, List.takeWhile_append_of_pos isLine,
    List.takeWhile_eq_self_iff.mpr isLine, List.filterMap_append]
  exact List.prefix_append _ _

theorem lines_sublist (lines : List PhysicalLine) :
    (ofLines lines).lines.Sublist
      ((Scan.start.eventsFrom lines).filterMap LineEvent.line?) := by
  rw [lines_ofLines]
  exact (List.takeWhile_sublist _).filterMap _

/-- Cleaned lines are numbered upward. -/
theorem numbers_ascend (lines : List PhysicalLine) :
    ((ofLines lines).lines.map (·.number)).Pairwise (· < ·) :=
  (Scan.start.numbers_eventsFrom lines).ascend.sublist ((lines_sublist lines).map _)

/-- The number of a cleaned line is that of a physical line. -/
theorem number_inRange {lines : List PhysicalLine} {line : Line}
    (member : line ∈ (ofLines lines).lines) : 1 ≤ line.number ∧ line.number ≤ lines.length := by
  obtain ⟨positive, atMost⟩ :=
    (Scan.start.numbers_eventsFrom lines).inRange line ((lines_sublist lines).subset member)
  have none : Scan.start.counted = 0 := rfl
  omega

/-- Of two cleaned lines, the one above the other has the smaller number, and lines with the same
number are the same. -/
theorem compare_positions {lines : List PhysicalLine} {above below earlier later : List Line}
    {line other : Line} (here : (ofLines lines).lines = above ++ line :: below)
    (there : (ofLines lines).lines = earlier ++ other :: later) :
    (other.number < line.number ∧ ∃ between, above = earlier ++ other :: between) ∨
      (earlier = above ∧ other = line) ∨ line.number < other.number := by
  have ascend := List.pairwise_map.mp (numbers_ascend lines)
  have smaller {front between back : List Line} {first second : Line}
      (split : (ofLines lines).lines = front ++ first :: (between ++ second :: back)) :
      first.number < second.number := by
    rw [split] at ascend
    exact (List.pairwise_cons.mp (List.pairwise_append.mp ascend).2.1).1 second (by simp)
  rcases List.append_eq_append_iff.mp (here.symm.trans there) with
    ⟨gap, rfl, behind⟩ | ⟨gap, rfl, behind⟩
  · cases gap with
    | nil => exact .inr (.inl ⟨by simp, (List.cons.inj behind).1.symm⟩)
    | cons first between =>
      obtain ⟨rfl, rfl⟩ := List.cons.inj behind
      exact .inr (.inr (smaller here))
  · cases gap with
    | nil => exact .inr (.inl ⟨by simp, (List.cons.inj behind).1⟩)
    | cons first between =>
      obtain ⟨rfl, rfl⟩ := List.cons.inj behind
      exact .inl ⟨smaller there, between, rfl⟩

end Script

/-! ### Handled lines -/

section Handled

variable {State : Type} (handle : State → Line → State × Option Skip) (file : String)

/-- The diagnostic of a line, if it is skipped. -/
def diagnostic? (line : Line) (skip? : Option Skip) : Option Diagnostic :=
  skip?.map fun skip => ⟨file, line.number, skip⟩

theorem handleLine_eq (progress : State × Array Diagnostic) (line : Line) :
    handleLine handle file progress line =
      ((handle progress.1 line).1,
        progress.2 ++ (diagnostic? file line (handle progress.1 line).2).toArray) := by
  rcases shape : handle progress.1 line with ⟨state, _ | skip⟩ <;>
    simp [handleLine, shape, diagnostic?]

/-- Lines that have been handled add their diagnostics in front of those of the others. -/
theorem foldl_handleLine (progress : State × Array Diagnostic) (lines : List Line) :
    lines.foldl (handleLine handle file) progress =
      ((handleLines handle file progress.1 lines).1,
        progress.2 ++ (handleLines handle file progress.1 lines).2) := by
  induction lines generalizing progress with
  | nil => simp [handleLines]
  | cons line rest inductionHypothesis =>
    rw [handleLines, List.foldl_cons, List.foldl_cons, inductionHypothesis,
      inductionHypothesis (handleLine handle file (progress.1, #[]) line)]
    simp [handleLine_eq]

/-- A line is handled before those below it. -/
theorem handleLines_cons (start : State) (line : Line) (rest : List Line) :
    handleLines handle file start (line :: rest) =
      ((handleLines handle file (handle start line).1 rest).1,
        (diagnostic? file line (handle start line).2).toArray ++
          (handleLines handle file (handle start line).1 rest).2) := by
  rw [handleLines, List.foldl_cons, foldl_handleLine, handleLine_eq, Array.empty_append]

theorem diagnostics_handleLines_append (start : State) (front back : List Line) :
    (handleLines handle file start (front ++ back)).2 =
      (handleLines handle file start front).2 ++
        (handleLines handle file (handleLines handle file start front).1 back).2 := by
  rw [handleLines, List.foldl_append, foldl_handleLine]
  rfl

/-- The diagnostics of a file that goes on start with those it has had before. -/
theorem diagnostics_handleLines_prefix (start : State) {front whole : List Line}
    (isPrefix : front <+: whole) :
    (handleLines handle file start front).2.toList <+:
      (handleLines handle file start whole).2.toList := by
  obtain ⟨back, rfl⟩ := isPrefix
  rw [diagnostics_handleLines_append, Array.toList_append]
  exact List.prefix_append _ _

/-- A line leaves at most one diagnostic behind, which bears its number. -/
theorem lineOf_handleLines_sublist (start : State) (lines : List Line) :
    ((handleLines handle file start lines).2.toList.map (·.line)).Sublist
      (lines.map (·.number)) := by
  induction lines generalizing start with
  | nil => exact List.Sublist.slnil
  | cons line rest inductionHypothesis =>
    have later := inductionHypothesis (handle start line).1
    rw [handleLines_cons, Array.toList_append, Option.toList_toArray, List.map_append,
      List.map_cons, diagnostic?]
    cases (handle start line).2 with
    | none => exact later.cons line.number
    | some skip => exact later.cons_cons line.number

/-- All diagnostics name the file. -/
theorem fileOf_handleLines (start : State) (lines : List Line) :
    ∀ diagnostic ∈ (handleLines handle file start lines).2.toList, diagnostic.file = file := by
  induction lines generalizing start with
  | nil => exact fun _ member => absurd member List.not_mem_nil
  | cons line rest inductionHypothesis =>
    intro diagnostic member
    rw [handleLines_cons, Array.toList_append, Option.toList_toArray, List.mem_append] at member
    rcases member with own | later
    · obtain ⟨skip, -, rfl⟩ := Option.map_eq_some_iff.mp (Option.mem_toList.mp own)
      rfl
    · exact inductionHypothesis _ diagnostic later

end Handled

end Codebook
