/-
This file says that skipped lines of actor and agent files leave no trace. Such a line is refused
before anything has been written, so the lines below it meet the state they would meet without it.
Main statement: a file without its skipped lines, or without one of them, gives the same dictionary,
and every other line has the fate it had before (`skipped_lines_leave_no_trace`).
-/

import Codebook.Agents.Compile
import Codebook.Proofs.ActorLines
import Codebook.Proofs.LinesInOrder

namespace Codebook

open Text

/-! ### What becomes of lines -/

/-- What becomes of a line. -/
inductive Fate
  | stored
  | skipped (skip : Skip)
  /-- The line bears the mark that ends its file, or stands behind it. -/
  | unread
deriving DecidableEq, Repr

namespace Fate

def ofSkip? : Option Skip → Fate
  | none => stored
  | some skip => skipped skip

def isSkipped : Fate → Bool
  | skipped _ => true
  | _ => false

end Fate

/-- The lines that are not skipped. -/
def unskipped (lines : List Line) (fates : List Fate) : List Line :=
  ((lines.zip fates).filter fun entry => !entry.2.isSkipped).map (·.1)

/-- The diagnostics of the lines that are skipped. -/
def reported (file : String) (lines : List Line) (fates : List Fate) : List Diagnostic :=
  (lines.zip fates).filterMap fun entry =>
    match entry.2 with
    | .skipped skip => some ⟨file, entry.1.number, skip⟩
    | _ => none

section Reading

variable {State : Type}

/-- A line that is refused leaves the state as it is. -/
def RefusesCleanly (handle : State → Line → State × Option Skip) : Prop :=
  ∀ state line skip, (handle state line).2 = some skip → (handle state line).1 = state

variable (ends : Line → Bool) (handle : State → Line → State × Option Skip)

/-- What becomes of each of some lines, which are handled one after the other up to one that ends
the file. -/
def fatesFrom (state : State) : List Line → List Fate
  | [] => []
  | line :: rest =>
    if ends line then .unread :: rest.map fun _ => .unread
    else .ofSkip? (handle state line).2 :: fatesFrom (handle state line).1 rest

/-- The state after the lines up to one that ends the file. -/
def stateAfter (state : State) : List Line → State
  | [] => state
  | line :: rest => if ends line then state else stateAfter (handle state line).1 rest

variable {ends handle}

theorem unskipped_unread (lines : List Line) :
    unskipped lines (lines.map fun _ => .unread) = lines := by
  induction lines with
  | nil => rfl
  | cons line rest inductionHypothesis => exact congrArg (line :: ·) inductionHypothesis

theorem reported_unread (file : String) (lines : List Line) :
    reported file lines (lines.map fun _ => .unread) = [] := by
  induction lines with
  | nil => rfl
  | cons line rest inductionHypothesis => exact inductionHypothesis

theorem fatesFrom_of_ends {state : State} {line : Line} {rest : List Line}
    (stops : ends line = true) :
    fatesFrom ends handle state (line :: rest) = (line :: rest).map fun _ => .unread := by
  rw [fatesFrom, if_pos stops, List.map_cons]

theorem fatesFrom_cons {state : State} {line : Line} {rest : List Line}
    (goesOn : ends line = false) :
    fatesFrom ends handle state (line :: rest) =
      .ofSkip? (handle state line).2 :: fatesFrom ends handle (handle state line).1 rest := by
  rw [fatesFrom, goesOn, if_neg Bool.false_ne_true]

theorem stateAfter_cons {state : State} {line : Line} {rest : List Line}
    (goesOn : ends line = false) :
    stateAfter ends handle state (line :: rest) =
      stateAfter ends handle (handle state line).1 rest := by
  rw [stateAfter, goesOn, if_neg Bool.false_ne_true]

/-- Folding the lines up to one that ends the file gives the state after them, and the diagnostics
of those that are skipped. -/
theorem handleLines_takeWhile (file : String) (start : State) (lines : List Line) :
    (handleLines handle file start (lines.takeWhile (!ends ·))).1 =
        stateAfter ends handle start lines ∧
      (handleLines handle file start (lines.takeWhile (!ends ·))).2.toList =
        reported file lines (fatesFrom ends handle start lines) := by
  induction lines generalizing start with
  | nil => exact ⟨rfl, rfl⟩
  | cons line rest inductionHypothesis =>
    cases stops : ends line with
    | true =>
      rw [List.takeWhile_cons_of_neg (by simp [stops]), stateAfter, if_pos stops,
        fatesFrom_of_ends stops, reported_unread]
      exact ⟨rfl, rfl⟩
    | false =>
      obtain ⟨sameState, sameReports⟩ := inductionHypothesis (handle start line).1
      rw [List.takeWhile_cons_of_pos (by simp [stops]), handleLines_cons, stateAfter_cons stops,
        fatesFrom_cons stops, Array.toList_append, Option.toList_toArray, sameReports]
      refine ⟨sameState, ?_⟩
      cases (handle start line).2 <;> rfl

/-! ### Without skipped lines -/

/-- Some lines are stored as all lines of a file are. What becomes of them is given. -/
structure StoredAlike (ends : Line → Bool) (handle : State → Line → State × Option Skip)
    (state : State) (kept all : List Line) (fates : List Fate) : Prop where
  sameState : stateAfter ends handle state kept = stateAfter ends handle state all
  sameEnd : kept.any ends = all.any ends
  fates_eq : fatesFrom ends handle state kept = fates

namespace StoredAlike

variable {state : State} {line : Line} {kept all : List Line} {fates : List Fate}

/-- A line that is read in both goes before them. -/
theorem cons (goesOn : ends line = false)
    (alike : StoredAlike ends handle (handle state line).1 kept all fates) :
    StoredAlike ends handle state (line :: kept) (line :: all)
      (.ofSkip? (handle state line).2 :: fates) where
  sameState := by rw [stateAfter_cons goesOn, stateAfter_cons goesOn, alike.sameState]
  sameEnd := by rw [List.any_cons, List.any_cons, alike.sameEnd]
  fates_eq := by rw [fatesFrom_cons goesOn, alike.fates_eq]

/-- A line that is missing in one of them goes before the other if it is skipped there. -/
theorem cons_skipped (clean : RefusesCleanly handle) (goesOn : ends line = false) {skip : Skip}
    (refused : (handle state line).2 = some skip)
    (alike : StoredAlike ends handle (handle state line).1 kept all fates) :
    StoredAlike ends handle state kept (line :: all) fates := by
  rw [clean state line skip refused] at alike
  exact {
    sameState := by rw [stateAfter_cons goesOn, clean state line skip refused, alike.sameState]
    sameEnd := by rw [List.any_cons, goesOn, Bool.false_or, alike.sameEnd]
    fates_eq := alike.fates_eq }

end StoredAlike

variable (clean : RefusesCleanly handle)

include clean

theorem storedAlike_unskipped (state : State) (lines : List Line) :
    StoredAlike ends handle state (unskipped lines (fatesFrom ends handle state lines)) lines
      ((fatesFrom ends handle state lines).filter (!·.isSkipped)) := by
  induction lines generalizing state with
  | nil => exact ⟨rfl, rfl, rfl⟩
  | cons line rest inductionHypothesis =>
    cases stops : ends line with
    | true =>
      -- Nothing is skipped behind a line that ends the file.
      have noneSkipped : ((line :: rest).map fun _ => Fate.unread).filter (!·.isSkipped) =
          (line :: rest).map fun _ => Fate.unread := by
        simp [Fate.isSkipped]
      rw [fatesFrom_of_ends stops, unskipped_unread, noneSkipped]
      exact ⟨rfl, rfl, fatesFrom_of_ends stops⟩
    | false =>
      have alike := inductionHypothesis (handle state line).1
      rw [fatesFrom_cons stops]
      cases outcome : (handle state line).2 with
      | none =>
        have stored := alike.cons stops
        rw [outcome] at stored
        exact stored
      | some skip => exact alike.cons_skipped clean stops outcome

theorem storedAlike_eraseIdx (state : State) (lines : List Line) (index : Nat) (skip : Skip)
    (isSkipped : (fatesFrom ends handle state lines)[index]? = some (.skipped skip)) :
    StoredAlike ends handle state (lines.eraseIdx index) lines
      ((fatesFrom ends handle state lines).eraseIdx index) := by
  induction lines generalizing state index with
  | nil => cases isSkipped
  | cons line rest inductionHypothesis =>
    cases stops : ends line with
    | true =>
      rw [fatesFrom_of_ends stops, List.getElem?_map, Option.map_eq_some_iff] at isSkipped
      obtain ⟨_, _, ⟨⟩⟩ := isSkipped
    | false =>
      rw [fatesFrom_cons stops] at isSkipped ⊢
      cases index with
      | zero =>
        have refused : (handle state line).2 = some skip := by
          cases outcome : (handle state line).2 <;> rw [outcome] at isSkipped <;> cases isSkipped
          rfl
        have alike : StoredAlike ends handle (handle state line).1 rest rest
            (fatesFrom ends handle (handle state line).1 rest) := ⟨rfl, rfl, rfl⟩
        exact alike.cons_skipped clean stops refused
      | succ index => exact (inductionHypothesis (handle state line).1 index isSkipped).cons stops

end Reading

/-! ### Refusing before anything is written -/

namespace Handling

variable {State α : Type}

/-- Something that reads the state and does not write to it. -/
def Reads (action : Handling State α) : Prop :=
  ∀ state, (action.run.run state).2 = state

/-- Something that is refused only where nothing has been written. -/
def IsClean (action : Handling State Unit) : Prop :=
  ∀ state skip, (action.perform state).2 = some skip → (action.perform state).1 = state

theorem reads_get : Reads (get : Handling State State) :=
  fun _ => rfl

theorem reads_pure (value : α) : Reads (pure value : Handling State α) :=
  fun _ => rfl

theorem reads_throw (skip : Skip) : Reads (throw skip : Handling State α) :=
  fun _ => rfl

theorem reads_except (result : Except Skip α) : Reads (liftM result : Handling State α) := by
  intro state
  cases result <;> rfl

theorem isClean_modify (write : State → State) : IsClean (modify write : Handling State Unit) :=
  nofun

theorem Reads.isClean {action : Handling State Unit} (reads : Reads action) : IsClean action := by
  intro state skip refused
  have unchanged := reads state
  unfold perform at refused ⊢
  rcases shape : action.run.run state with ⟨_ | _, after⟩ <;> rw [shape] at unchanged
  all_goals exact unchanged

/-- What is read first makes no difference. -/
theorem Reads.bind {action : Handling State α} (reads : Reads action)
    {rest : α → Handling State Unit} (restClean : ∀ value, IsClean (rest value)) :
    IsClean (action >>= rest) := by
  intro state skip
  have unchanged := reads state
  have steps : (action >>= rest).perform state =
      match action.run.run state with
      | (.ok value, after) => (rest value).perform after
      | (.error skip, after) => (after, some skip) := by
    rw [perform, ExceptT.run_bind, StateT.run_bind]
    rcases action.run.run state with ⟨_ | value, after⟩ <;> rfl
  rw [steps]
  rcases shape : action.run.run state with ⟨_ | value, after⟩ <;> rw [shape] at unchanged
  · exact fun _ => unchanged
  · rw [← unchanged]
    exact restClean value after skip

theorem IsClean.ite {condition : Prop} [Decidable condition] {first second : Handling State Unit}
    (firstClean : IsClean first) (secondClean : IsClean second) :
    IsClean (if condition then first else second) := by
  split
  next => exact firstClean
  next => exact secondClean

end Handling

namespace AgentState

open Handling

theorem isClean_defineMarker (text : List Char) : IsClean (defineMarker text) := by
  unfold defineMarker
  split
  next =>
    split
    next => exact isClean_modify _
    next => exact (reads_throw _).isClean
  next => exact (reads_throw _).isClean

theorem isClean_expandMarker (phrase : List Char) (code : AgentCode) :
    IsClean (expandMarker phrase code) := by
  unfold expandMarker
  split
  next =>
    split
    next =>
      refine reads_get.bind fun state => ?_
      split
      next => exact isClean_modify _
      next => exact (reads_throw _).isClean
    next => exact (reads_throw _).isClean
  next => exact (reads_pure _).isClean

theorem isClean_storePhrase (line : List Char) : IsClean (storePhrase line) := by
  unfold storePhrase
  dsimp only
  split
  next =>
    refine (reads_except _).bind fun code => (reads_except _).bind fun parts => ?_
    refine ((reads_throw _).bind fun _ => ?_).ite ?_
    all_goals exact (isClean_expandMarker _ _).ite (isClean_modify _)
  next => exact (reads_throw _).isClean

theorem isClean_store (line : List Char) : IsClean (store line) := by
  unfold store
  split
  next => exact (isClean_defineMarker _).ite (isClean_storePhrase _)
  next => exact isClean_storePhrase _

theorem refusesCleanly : RefusesCleanly handle :=
  fun state line => isClean_store (trim line.text) state

end AgentState

theorem ActorState.refusesCleanly (keepRoots : Bool) : RefusesCleanly (handle keepRoots) := by
  intro state line skip
  rw [handle_eq]
  cases ActorItem.read state.current.isSome line.text with
  | ok item => exact nofun
  | error refused => exact fun _ => rfl

/-! ### Dictionaries -/

/-- The skipped lines of a file leave no trace in its dictionary. What a file is compiled to and
what becomes of its lines are given. -/
structure SkipsLeaveNoTrace {Dictionary : Type} (file : String)
    (compile : List Line → Compilation Dictionary) (fates : List Line → List Fate) : Prop where
  /-- The skipped lines are those that a diagnostic tells of. -/
  reports (lines : List Line) :
    (compile lines).diagnostics.toList = reported file lines (fates lines)
  withoutAll (lines : List Line) :
    (compile (unskipped lines (fates lines))).dictionary = (compile lines).dictionary ∧
      fates (unskipped lines (fates lines)) = (fates lines).filter (!·.isSkipped)
  withoutOne (lines : List Line) (index : Nat) (skip : Skip) :
    (fates lines)[index]? = some (.skipped skip) →
      (compile (lines.eraseIdx index)).dictionary = (compile lines).dictionary ∧
        fates (lines.eraseIdx index) = (fates lines).eraseIdx index

/-- The dictionary of a file is what the state after its lines is completed to. How it is completed
may depend on whether a line ends the file. -/
theorem RefusesCleanly.skipsLeaveNoTrace {State Dictionary : Type}
    {handle : State → Line → State × Option Skip} (clean : RefusesCleanly handle)
    (ends : Line → Bool) (file : String) (start : State) (complete : Bool → State → Dictionary)
    {compile : List Line → Compilation Dictionary}
    (dictionary_eq : ∀ lines, (compile lines).dictionary =
      complete (lines.any ends) (handleLines handle file start (lines.takeWhile (!ends ·))).1)
    (diagnostics_eq : ∀ lines, (compile lines).diagnostics =
      (handleLines handle file start (lines.takeWhile (!ends ·))).2) :
    SkipsLeaveNoTrace file compile (fatesFrom ends handle start) := by
  have sameDictionary {kept all : List Line} {fates : List Fate}
      (alike : StoredAlike ends handle start kept all fates) :
      (compile kept).dictionary = (compile all).dictionary := by
    rw [dictionary_eq, dictionary_eq, (handleLines_takeWhile file start kept).1,
      (handleLines_takeWhile file start all).1, alike.sameState, alike.sameEnd]
  exact {
    reports := fun lines => by
      rw [diagnostics_eq, (handleLines_takeWhile file start lines).2]
    withoutAll := fun lines =>
      have alike := storedAlike_unskipped clean start lines
      ⟨sameDictionary alike, alike.fates_eq⟩
    withoutOne := fun lines index skip isSkipped =>
      have alike := storedAlike_eraseIdx clean start lines index skip isSkipped
      ⟨sameDictionary alike, alike.fates_eq⟩ }

theorem ActorDictionary.skipsLeaveNoTrace (keepRoots : Bool) (earlier : ActorDictionary)
    (file : String) (failedAfter : Option Nat) :
    SkipsLeaveNoTrace file (fun lines => earlier.compileInto keepRoots file ⟨lines, failedAfter⟩)
      (fatesFrom Script.isStop (ActorState.handle keepRoots) ⟨earlier, none⟩) := by
  refine (ActorState.refusesCleanly keepRoots).skipsLeaveNoTrace Script.isStop file ⟨earlier, none⟩
    (fun stopped state =>
      if stopped || failedAfter.isNone then (state.close keepRoots).dictionary
      else state.dictionary) ?_ ?_
  · intro lines
    rw [compileInto, Script.lines_untilStop_eq, Script.failedAfter_untilStop]
    dsimp only
    cases lines.any Script.isStop <;> cases failedAfter <;> rfl
  · intro lines
    rw [compileInto, Script.lines_untilStop_eq]

theorem AgentDictionary.skipsLeaveNoTrace (file : String) (failedAfter : Option Nat) :
    SkipsLeaveNoTrace file (fun lines => AgentDictionary.compile file ⟨lines, failedAfter⟩)
      (fatesFrom (fun _ => false) AgentState.handle .start) := by
  have all (lines : List Line) : lines.takeWhile (fun _ => !false) = lines :=
    List.takeWhile_eq_self_iff.mpr fun _ _ => rfl
  refine AgentState.refusesCleanly.skipsLeaveNoTrace (fun _ => false) file .start
    (fun _ state => state.dictionary) ?_ ?_
  · intro lines
    rw [compile, all]
  · intro lines
    rw [compile, all]

/-- A refused line changes nothing, whatever the state it meets. So skipped lines might as well be
missing from actor files, which go into any dictionary, and from agent files: without all of them or
without one of them the dictionary is the same, and every other line has the fate it had. -/
theorem skipped_lines_leave_no_trace :
    (∀ keepRoots, RefusesCleanly (ActorState.handle keepRoots)) ∧
      RefusesCleanly AgentState.handle ∧
      (∀ keepRoots earlier file failedAfter,
        SkipsLeaveNoTrace file
          (fun lines =>
            ActorDictionary.compileInto keepRoots earlier file ⟨lines, failedAfter⟩)
          (fatesFrom Script.isStop (ActorState.handle keepRoots) ⟨earlier, none⟩)) ∧
      ∀ file failedAfter,
        SkipsLeaveNoTrace file (fun lines => AgentDictionary.compile file ⟨lines, failedAfter⟩)
          (fatesFrom (fun _ => false) AgentState.handle .start) :=
  ⟨ActorState.refusesCleanly, AgentState.refusesCleanly, ActorDictionary.skipsLeaveNoTrace,
    AgentDictionary.skipsLeaveNoTrace⟩

/-- A file that starts with a synonym. -/
def strayLines : List Line :=
  [⟨1, "+LOST_".toList⟩, ⟨2, "ALICE_ [USA]".toList⟩, ⟨3, "+AL_".toList⟩]

theorem stray_synonym_leaves_no_trace :
    fatesFrom Script.isStop (ActorState.handle true) ⟨.empty, none⟩ strayLines =
        [.skipped .synonymBeforeActor, .stored, .stored] ∧
      (ActorDictionary.empty.compileInto true "actors" ⟨strayLines.eraseIdx 0, none⟩).dictionary =
        (ActorDictionary.empty.compileInto true "actors" ⟨strayLines, none⟩).dictionary := by
  have fates : fatesFrom Script.isStop (ActorState.handle true) ⟨.empty, none⟩ strayLines =
      [.skipped .synonymBeforeActor, .stored, .stored] := by
    decide +kernel
  obtain ⟨-, -, actors, -⟩ := skipped_lines_leave_no_trace
  have without := (actors true .empty "actors" none).withoutOne strayLines 0 .synonymBeforeActor
  exact ⟨fates, (without (by rw [fates]; rfl)).1⟩

end Codebook
