/-
This file reads a dictionary line by line with every access checked. It goes on to the end of the
file unless a line bears a mark at which it stops, or a line cannot be decoded. Main statements:
where the compiler of the dictionary meets valid states only, reading comes to what it comes to
without checks (`Unfailing.readChecked_eq`), and it fails exactly at the first physical line that is
not UTF-8, if that is reached (`Script.failedAfter_cutAt_iff`).
-/

import Codebook.Proofs.CheckedLines
import Codebook.Workspace

namespace Codebook

open Text
open FileAccess (Outcome)

variable {State : Type}

/-! ### Scripts -/

namespace Script

/-- What a compiler gets to see of what comes out of a file. -/
def ofEvents (events : List LineEvent) : Script where
  lines := (events.takeWhile fun event => event.line?.isSome).filterMap LineEvent.line?
  failedAfter := events.findSome? LineEvent.failure?

/-- The script up to a line at which reading stops. What comes after it is not read. -/
def cutAt (stops : Line → Bool) (script : Script) : Script :=
  if script.lines.any stops then ⟨script.lines.takeWhile (!stops ·), none⟩ else script

/-- What handling the lines of a script comes to. -/
def handled (handle : State → Line → State × Option Skip) (file : String)
    (progress : State × Array Diagnostic) (script : Script) : Compilation State :=
  let done := script.lines.foldl (handleLine handle file) progress
  ⟨done.1, done.2, script.failedAfter⟩

/-- Diagnostics that have been there before stay in front. -/
theorem handled_eq (handle : State → Line → State × Option Skip) (file : String) (start : State)
    (reported : Array Diagnostic) (script : Script) :
    script.handled handle file (start, reported) =
      ⟨(handleLines handle file start script.lines).1,
        reported ++ (handleLines handle file start script.lines).2, script.failedAfter⟩ := by
  rw [handled, foldl_handleLine]

theorem ofLines_eq (lines : List PhysicalLine) :
    ofLines lines = ofEvents ((Scan.behind .outside 0).eventsFrom lines) := by
  rw [ofLines, Scan.events_feedAll]
  rfl

theorem ofEvents_undecodable (count : Nat) (events : List LineEvent) :
    ofEvents (.undecodable count :: events) = ⟨[], some count⟩ := rfl

theorem ofEvents_line (line : Line) (events : List LineEvent) :
    ofEvents (.line line :: events) =
      ⟨line :: (ofEvents events).lines, (ofEvents events).failedAfter⟩ := rfl

theorem cutAt_never (script : Script) : script.cutAt (fun _ => false) = script := by
  rw [cutAt, if_neg]
  simp

theorem cutAt_cons (stops : Line → Bool) (line : Line) (script : Script) :
    cutAt stops ⟨line :: script.lines, script.failedAfter⟩ =
      if stops line then ⟨[], none⟩
      else ⟨line :: (script.cutAt stops).lines, (script.cutAt stops).failedAfter⟩ := by
  rw [cutAt, cutAt, List.any_cons, List.takeWhile_cons]
  cases stops line with
  | true => rfl
  | false =>
    rw [Bool.false_or, if_neg Bool.false_ne_true]
    split <;> rfl

end Script

/-! ### Reading -/

/-- Handles one line. A skipped one leaves a diagnostic behind. -/
def handleLineChecked (checked : State → Line → Except Access (State × Option Skip))
    (file : String) (progress : State × Array Diagnostic) (line : Line) :
    Except Access (State × Array Diagnostic) := do
  let (state, skip?) ← checked progress.1 line
  match skip? with
  | none => return (state, progress.2)
  | some skip => return (state, progress.2.push ⟨file, line.number, skip⟩)

/-- Reads physical lines behind `counted` others, with the comment that is open there, and handles
each cleaned line when it is complete. -/
def readChecked (checked : State → Line → Except Access (State × Option Skip))
    (stops : Line → Bool) (file : String) (comment : Comment) (counted : Nat)
    (progress : State × Array Diagnostic) :
    List PhysicalLine → Except Access (Compilation State)
  | [] => return ⟨progress.1, progress.2, none⟩
  | .undecodable :: _ => return ⟨progress.1, progress.2, some counted⟩
  | .text chars :: rest => do
    match ← comment.cleanChecked chars with
    | (left, none) => readChecked checked stops file left (counted + 1) progress rest
    | (left, some text) =>
      let line : Line := ⟨counted + 1, text⟩
      if stops line then return ⟨progress.1, progress.2, none⟩
      else
        let progress ← handleLineChecked checked file progress line
        readChecked checked stops file left (counted + 1) progress rest

/-- What becomes of the states of a compiler that checks its accesses: in valid states no access
fails, so that a line is handled as without checks, and states stay valid. -/
structure Unfailing (Valid : State → Prop)
    (checked : State → Line → Except Access (State × Option Skip))
    (handle : State → Line → State × Option Skip) : Prop where
  agrees : ∀ {state}, Valid state → ∀ line, checked state line = .ok (handle state line)
  remains : ∀ {state}, Valid state → ∀ line, Valid (handle state line).1

namespace Unfailing

variable {Valid : State → Prop} {checked : State → Line → Except Access (State × Option Skip)}
  {handle : State → Line → State × Option Skip} {progress : State × Array Diagnostic}

theorem handleLineChecked_eq (unfailing : Unfailing Valid checked handle) (file : String)
    (valid : Valid progress.1) (line : Line) :
    handleLineChecked checked file progress line = .ok (handleLine handle file progress line) := by
  rw [handleLineChecked, unfailing.agrees valid, Access.ok_bind]
  rcases shape : handle progress.1 line with ⟨state, _ | skip⟩ <;> simp [handleLine, shape] <;> rfl

theorem handleLine_remains (unfailing : Unfailing Valid checked handle) (file : String)
    (valid : Valid progress.1) (line : Line) : Valid (handleLine handle file progress line).1 := by
  rw [handleLine_eq]
  exact unfailing.remains valid line

/-- Reading is handling what comes out of the physical lines, up to a line at which it stops. -/
theorem readChecked_eq (unfailing : Unfailing Valid checked handle) (stops : Line → Bool)
    (file : String) (comment : Comment) (counted : Nat) (valid : Valid progress.1)
    (lines : List PhysicalLine) :
    readChecked checked stops file comment counted progress lines =
      .ok (((Script.ofEvents ((Scan.behind comment counted).eventsFrom lines)).cutAt stops).handled
        handle file progress) := by
  induction lines generalizing comment counted progress with
  | nil => rfl
  | cons physical rest inductionHypothesis =>
    cases physical with
    | undecodable =>
      rw [Scan.eventsFrom_undecodable, Script.ofEvents_undecodable]
      rfl
    | text chars =>
      rw [Scan.eventsFrom_text, readChecked, Comment.cleanChecked_eq, Access.ok_bind]
      obtain ⟨left, _ | text⟩ := comment.clean chars
      · exact inductionHypothesis left (counted + 1) valid
      · dsimp only
        rw [Option.map_some, Option.toList_some, List.singleton_append, Script.ofEvents_line,
          Script.cutAt_cons]
        split
        next => rfl
        next =>
          rw [unfailing.handleLineChecked_eq file valid, Access.ok_bind]
          exact inductionHypothesis left (counted + 1)
            (unfailing.handleLine_remains file valid ⟨counted + 1, text⟩)

/-- The state at the end is valid. -/
theorem handled_remains (unfailing : Unfailing Valid checked handle) (file : String)
    (valid : Valid progress.1) (script : Script) :
    Valid (script.handled handle file progress).dictionary := by
  obtain ⟨lines, failedAfter⟩ := script
  induction lines generalizing progress with
  | nil => exact valid
  | cons line rest inductionHypothesis =>
    exact inductionHypothesis (unfailing.handleLine_remains file valid line)

end Unfailing

/-! ### Where reading fails -/

/-- The bytes of a physical line are those of a text. -/
def IsUtf8 (line : List UInt8) : Prop :=
  ByteArray.IsValidUTF8 ⟨line.toArray⟩

/-- Behind `count` physical lines there is the first one that is not UTF-8, and none of the cleaned
lines above it is one at which reading stops. -/
def FailsAfter (stops : Line → Bool) (bytes : ByteArray) (count : Nat) : Prop :=
  ∃ front bad back, linesBy (· == 10) bytes.data.toList = front ++ bad :: back ∧
    (∀ line ∈ front, IsUtf8 line) ∧ ¬ IsUtf8 bad ∧ count = front.length ∧
      ∀ line ∈ (Script.ofLines (front.map PhysicalLine.ofBytes)).lines, stops line = false

theorem PhysicalLine.ofBytes_eq_undecodable_iff {line : List UInt8} :
    ofBytes line = .undecodable ↔ ¬ IsUtf8 line := by
  rw [ofBytes, String.fromUTF8?, IsUtf8]
  by_cases valid : ByteArray.IsValidUTF8 ⟨line.toArray⟩ <;> simp [valid, ofChars]

theorem PhysicalLine.undecodable_not_mem_map_iff {lines : List (List UInt8)} :
    .undecodable ∉ lines.map ofBytes ↔ ∀ line ∈ lines, IsUtf8 line := by
  simp only [List.mem_map, ofBytes_eq_undecodable_iff, not_exists, not_and, not_not]

namespace Script

theorem ofEvents_append_undecodable {front : List LineEvent}
    (complete : ∀ event ∈ front, event.failure? = none) (count : Nat) (back : List LineEvent) :
    ofEvents (front ++ .undecodable count :: back) = ⟨(ofEvents front).lines, some count⟩ := by
  induction front with
  | nil => rfl
  | cons event others inductionHypothesis =>
    obtain ⟨noFailure, othersComplete⟩ := List.forall_mem_cons.mp complete
    cases event with
    | line line =>
      rw [List.cons_append, ofEvents_line, inductionHypothesis othersComplete, ofEvents_line]
    | undecodable after => cases noFailure

/-- A line that cannot be decoded is the last that is read. -/
theorem ofLines_append_undecodable {front : List PhysicalLine} (decodable : .undecodable ∉ front)
    (back : List PhysicalLine) :
    ofLines (front ++ .undecodable :: back) = ⟨(ofLines front).lines, some front.length⟩ := by
  have counted : ((Scan.behind .outside 0).feedAll front).counted = front.length := by
    rw [Scan.counted_feedAll, PhysicalLine.countOf_eq_length decodable]
    exact Nat.zero_add _
  rw [ofLines_eq, ofLines_eq, Scan.eventsFrom_append, ← counted]
  exact ofEvents_append_undecodable (Scan.failure?_of_mem_eventsFrom decodable) _ _

theorem failedAfter_cutAt (stops : Line → Bool) (script : Script) :
    (script.cutAt stops).failedAfter =
      if script.lines.any stops then none else script.failedAfter := by
  rw [cutAt]
  split <;> rfl

/-- Reading fails exactly at a physical line that is reached and is not UTF-8. -/
theorem failedAfter_cutAt_iff (stops : Line → Bool) (bytes : ByteArray) (count : Nat) :
    ((ofLines (PhysicalLine.linesOfBytes bytes)).cutAt stops).failedAfter = some count ↔
      FailsAfter stops bytes count := by
  rw [failedAfter_cutAt, PhysicalLine.linesOfBytes]
  constructor
  · intro failed
    have reached :
        .undecodable ∈ (linesBy (· == 10) bytes.data.toList).map PhysicalLine.ofBytes := by
      refine Decidable.not_not.mp fun decodable => ?_
      rw [failedAfter_ofLines_eq_none decodable, ite_self] at failed
      cases failed
    obtain ⟨above, below, shape, decodable⟩ := List.eq_append_cons_of_mem reached
    obtain ⟨front, rest, lines, rfl, isRest⟩ := List.map_eq_append_iff.mp shape
    obtain ⟨bad, back, rfl, isBad, -⟩ := List.map_eq_cons_iff.mp isRest
    rw [shape, ofLines_append_undecodable decodable] at failed
    dsimp only at failed
    split at failed
    next => cases failed
    next noStop =>
      refine ⟨front, bad, back, lines, PhysicalLine.undecodable_not_mem_map_iff.mp decodable,
        PhysicalLine.ofBytes_eq_undecodable_iff.mp isBad, ?_, by simpa using noStop⟩
      rw [← Option.some.inj failed, List.length_map]
  · rintro ⟨front, bad, back, lines, areUtf8, notUtf8, rfl, noStop⟩
    have decodable := PhysicalLine.undecodable_not_mem_map_iff.mpr areUtf8
    rw [lines, List.map_append, List.map_cons,
      PhysicalLine.ofBytes_eq_undecodable_iff.mpr notUtf8, ofLines_append_undecodable decodable,
      if_neg (by simpa using noStop), List.length_map]

end Script

/-! ### Compilers -/

/-- A compilation in a context in which diagnostics have been reported before. -/
def Compilation.after {Dictionary : Type} (reported : Array Diagnostic)
    (compilation : Compilation Dictionary) : Compilation Dictionary :=
  { compilation with diagnostics := reported ++ compilation.diagnostics }

/-- What the bytes of a dictionary file do to its compiler. No access fails, and the compilation is
what it is without checks. The only failure is that a physical line cannot be read, which happens
exactly if it is reached and is not UTF-8; a text is compiled. -/
structure IsCompiled {Dictionary : Type} (stops : Line → Bool) (file : String) (bytes : ByteArray)
    (reported : Array Diagnostic) (checked : Except Access (Compilation Dictionary))
    (compilation : Compilation Dictionary) : Prop where
  unfailing : checked = .ok (compilation.after reported)
  fails_iff : ∀ failure, (Outcome.ofCompilation file compilation).result = .error failure ↔
    ∃ count, FailsAfter stops bytes count ∧ failure = .cannotRead file count .notText
  succeeds : ∀ text : String, bytes = text.toUTF8 →
    (Outcome.ofCompilation file compilation).result = .ok compilation.dictionary

/-- A compiler fails where reading fails. -/
theorem isCompiled_of_unfailing {Dictionary : Type} {stops : Line → Bool} (file : String)
    {bytes : ByteArray} {reported : Array Diagnostic}
    {checked : Except Access (Compilation Dictionary)} {compilation : Compilation Dictionary}
    (unfailing : checked = .ok (compilation.after reported))
    (failedAfter : compilation.failedAfter =
      ((Script.ofLines (PhysicalLine.linesOfBytes bytes)).cutAt stops).failedAfter) :
    IsCompiled stops file bytes reported checked compilation where
  unfailing := unfailing
  fails_iff failure := by
    have fails (count : Nat) : compilation.failedAfter = some count ↔
        FailsAfter stops bytes count := by
      rw [failedAfter, Script.failedAfter_cutAt_iff]
    simp only [← fails, Outcome.ofCompilation]
    cases compilation.failedAfter with
    | none => simp
    | some count => simp [eq_comm]
  succeeds text isText := by
    have decodable : (Script.ofLines (PhysicalLine.linesOfBytes bytes)).failedAfter = none := by
      rw [isText, PhysicalLine.linesOfBytes_toUTF8]
      exact Script.failedAfter_ofLines_eq_none
        (PhysicalLine.undecodable_not_mem_linesOfText text.toList)
    rw [Script.failedAfter_cutAt, decodable, ite_self] at failedAfter
    rw [Outcome.ofCompilation, failedAfter]

end Codebook
