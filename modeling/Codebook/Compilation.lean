/-
This file folds the cleaned lines of a dictionary into a state. Every dictionary has its own way
to handle a line; what they share is that a skipped line leaves a diagnostic behind and that
nothing on a line ends the compilation.
-/

import Codebook.Diagnostic
import Codebook.Lines.Cleaned

namespace Codebook

/-- What a compilation yields: the dictionary, a diagnostic for every skipped line, and, if the
file holds a line that cannot be decoded, the number of lines counted before it. In that case the
dictionary holds the entries up to there. -/
structure Compilation (Dictionary : Type) where
  dictionary : Dictionary
  diagnostics : Array Diagnostic
  failedAfter : Option Nat
deriving DecidableEq

variable {State : Type}

/-- Handles one line: the state after it, and its diagnostic if it is skipped. -/
def handleLine (handle : State → Line → State × Option Skip) (file : String)
    (progress : State × Array Diagnostic) (line : Line) : State × Array Diagnostic :=
  let (state, skip?) := handle progress.1 line
  match skip? with
  | none => (state, progress.2)
  | some skip => (state, progress.2.push ⟨file, line.number, skip⟩)

def handleLines (handle : State → Line → State × Option Skip) (file : String) (start : State)
    (lines : List Line) : State × Array Diagnostic :=
  lines.foldl (handleLine handle file) (start, #[])

/-- The state after all lines depends on no diagnostic. -/
theorem handleLines_fst (handle : State → Line → State × Option Skip) (file : String)
    (start : State) (lines : List Line) :
    (handleLines handle file start lines).1 =
      lines.foldl (fun state line => (handle state line).1) start := by
  have general (progress : State × Array Diagnostic) :
      (lines.foldl (handleLine handle file) progress).1 =
        lines.foldl (fun state line => (handle state line).1) progress.1 := by
    induction lines generalizing progress with
    | nil => rfl
    | cons line rest inductionHypothesis =>
      rw [List.foldl_cons, List.foldl_cons, inductionHypothesis]
      congr 1
      rcases shape : handle progress.1 line with ⟨next, _ | skip⟩ <;> simp [handleLine, shape]
  exact general (start, #[])

/-- What is done with a line where the state is written in place. The line may be refused on the
way, and what was written before that stays. -/
abbrev Handling (State : Type) := ExceptT Skip (StateM State)

/-- The state after a line has been dealt with, and the reason if it is refused. -/
def Handling.perform (action : Handling State Unit) (state : State) : State × Option Skip :=
  match action.run.run state with
  | (.ok (), after) => (after, none)
  | (.error skip, after) => (after, some skip)

/-- A line that is either stored or skipped as a whole: skipping keeps the state. -/
def orSkip (state : State) : Except Skip State → State × Option Skip
  | .ok next => (next, none)
  | .error skip => (state, some skip)

open Text in
/-- Splits a line at its first `[` into the trimmed text before it and the code inside the
brackets. Empty brackets hold no code. -/
def splitCode (line : List Char) : List Char × Option String :=
  match splitAt? (· == '[') line with
  | none => (trim line, none)
  | some (before, after) =>
    let code := trim (after.takeWhile (· != ']'))
    (trim before, if code.isEmpty then none else some (String.ofList code))

open Text in
/-- What a line starts with is not lost, unless it is white space or the bracket. -/
theorem head?_splitCode {c : Char} (notSpace : isSpace c = false) (noBracket : c ≠ '[')
    (rest : List Char) : (splitCode (c :: rest)).1.head? = some c := by
  unfold splitCode
  cases found : splitAt? (· == '[') (c :: rest) with
  | none => exact head?_trim notSpace rest
  | some parts =>
    obtain ⟨before, after⟩ := parts
    obtain ⟨shape, -⟩ := splitAt?_beq_eq_some_iff.mp found
    cases before with
    | nil => exact absurd (List.cons.inj shape).1 noBracket
    | cons first others =>
      rw [List.cons_append, List.cons.injEq] at shape
      rw [← shape.1]
      exact head?_trim notSpace others

end Codebook
