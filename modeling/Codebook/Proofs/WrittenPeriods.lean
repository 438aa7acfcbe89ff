/-
This file says which texts are dated codes. Such a text stands in brackets: the code is a word, and
behind it come the dates of the days on which it is valid, if there are any. Main statement: a text
is read as a dated code exactly if it is written like that, and then the bounds of its period are
the ordinals of the dates (`DatedCode.read_eq_ok_iff`).
-/

import Codebook.Actors.Restriction
import Codebook.Proofs.CalendarOrder
import Mathlib.Data.List.TakeWhile

namespace Codebook

open Text

/-! ### The form of a dated code -/

/-- A period by the dates that are written for it. -/
inductive WrittenPeriod
  | always
  | until (last : Date)
  | since (first : Date)
  | between (first last : Date)
deriving DecidableEq, Repr

namespace WrittenPeriod

/-- The period with the ordinals of the dates. -/
def period : WrittenPeriod → Period
  | always => .always
  | .until last => .until last.ordinal
  | since first => .since first.ordinal
  | between first last => .between first.ordinal last.ordinal

end WrittenPeriod

/-- A text starts with the digits of a day of the calendar. -/
def WritesDay (text : List Char) (day : Date) : Prop :=
  Date.Writes text day ∧ day.Valid

/-- The digits in front of anything else, after white space. -/
def leadingDigits (text : List Char) : List Char :=
  (trimStart text).takeWhile Char.isDigit

/-- What stands behind a code. One-sided periods go by the digits that come first, and of an
interval both dates are trimmed. -/
inductive WritesPeriod : List Char → WrittenPeriod → Prop
  | always : WritesPeriod [] .always
  | until {text : List Char} {last : Date} (writes : WritesDay (leadingDigits text) last) :
    WritesPeriod ('<' :: text) (.until last)
  | since {text : List Char} {first : Date} (writes : WritesDay (leadingDigits text) first) :
    WritesPeriod ('>' :: text) (.since first)
  | between {firstText lastText : List Char} {first last : Date} (noDash : '-' ∉ firstText)
    (writesFirst : WritesDay (trim firstText) first) (writesLast : WritesDay (trim lastText) last)
    (ordered : first.triple ≤ last.triple) :
    WritesPeriod (firstText ++ '-' :: lastText) (.between first last)

/-- A code in brackets: the first word inside, and behind it what stands for its period. What
follows the first closing bracket is not looked at. -/
inductive WritesCode : List Char → WrittenPeriod → String → Prop
  | intro {inner rest code dates : List Char} {period : WrittenPeriod} (closed : ']' ∉ inner)
    (parts : trim inner = code ++ dates) (isNonempty : code ≠ [])
    (isWord : ∀ c ∈ code, isSpace c = false) (isApart : ∀ c ∈ dates.head?, isSpace c = true)
    (writes : WritesPeriod (trim dates) period) :
    WritesCode ('[' :: inner ++ ']' :: rest) period (String.ofList code)

namespace DatedCode

/-! ### Reading dates -/

theorem readDate_eq_ok_iff {text : List Char} {ordinal : Int} :
    readDate text = .ok ordinal ↔ ∃ day, WritesDay text day ∧ day.ordinal = ordinal := by
  have read : ordinalOfText (String.ofList text) = .ok ordinal ↔
      ∃ day, WritesDay text day ∧ day.ordinal = ordinal := by
    simp only [ordinalOfText_eq_ok_iff, String.toList_ofList, WritesDay, and_assoc]
  rw [← read, readDate]
  cases ordinalOfText (String.ofList text) <;> simp [Except.mapError]

/-- A date starts with a digit. -/
theorem isDigit_of_writesDay {c : Char} {text : List Char} {day : Date}
    (writes : WritesDay text day) (isFirst : text.head? = some c) : c.isDigit := by
  have general {width : Nat} {year month dayOfMonth rest : List Char}
      (fields : Date.AreFields width year month dayOfMonth) (wide : 0 < width)
      (isFirst : (year ++ month ++ dayOfMonth ++ rest).head? = some c) : c.isDigit := by
    have length := fields.year_length
    cases year with
    | nil => exact absurd length (Nat.ne_of_lt wide)
    | cons first others =>
      obtain rfl := Option.some.inj isFirst
      exact fields.each.1 first List.mem_cons_self
  obtain ⟨writes, -⟩ := writes
  cases writes with
  | long fields => exact general fields (by decide) isFirst
  | short fields => exact general fields (by decide) isFirst

/-- What an interval starts with is not taken for the mark of a one-sided period. -/
theorem ne_of_interval {mark : Char} (notSpace : isSpace mark = false) (noDigit : ¬ mark.isDigit)
    (notDash : mark ≠ '-') {firstText lastText text : List Char} {first : Date}
    (writesFirst : WritesDay (trim firstText) first) :
    firstText ++ '-' :: lastText ≠ mark :: text := by
  intro same
  cases firstText with
  | nil => exact notDash (List.cons.inj same).1.symm
  | cons c others =>
    obtain ⟨rfl, -⟩ := List.cons.inj same
    exact noDigit (isDigit_of_writesDay writesFirst (head?_trim notSpace others))

/-- A period that can be read is written, and its bounds are the ordinals of the dates. -/
theorem exists_writesPeriod {dates : List Char} {period : Period}
    (isRead : readPeriod dates = .ok period) :
    ∃ written, WritesPeriod dates written ∧ written.period = period := by
  unfold readPeriod at isRead
  split at isRead
  next =>
    obtain rfl := Except.ok.inj isRead
    exact ⟨.always, .always, rfl⟩
  next text =>
    obtain ⟨_, bound, rest⟩ := Date.bind_eq_ok_iff.mp isRead
    obtain ⟨last, writes, rfl⟩ := readDate_eq_ok_iff.mp bound
    exact ⟨.until last, .until writes, Except.ok.inj rest⟩
  next text =>
    obtain ⟨_, bound, rest⟩ := Date.bind_eq_ok_iff.mp isRead
    obtain ⟨first, writes, rfl⟩ := readDate_eq_ok_iff.mp bound
    exact ⟨.since first, .since writes, Except.ok.inj rest⟩
  next =>
    split at isRead
    next => cases isRead
    next firstText lastText parts =>
      obtain ⟨rfl, noDash⟩ := splitAt?_beq_eq_some_iff.mp parts
      simp only [Date.bind_eq_ok_iff, readDate_eq_ok_iff] at isRead
      obtain ⟨_, ⟨first, writesFirst, rfl⟩, _, ⟨last, writesLast, rfl⟩, rest⟩ := isRead
      split at rest
      next => cases rest
      next ordered =>
        have inOrder : first.triple ≤ last.triple :=
          (Date.ordinal_le_iff writesFirst.2 writesLast.2).mp (Int.not_lt.mp ordered)
        exact ⟨.between first last, .between noDash writesFirst writesLast inOrder,
          Except.ok.inj rest⟩

/-- A written period is read. -/
theorem readPeriod_of_writes {dates : List Char} {written : WrittenPeriod}
    (writes : WritesPeriod dates written) : readPeriod dates = .ok written.period := by
  unfold readPeriod
  cases writes with
  | always => rfl
  | @«until» text last writes =>
    have bound : readBound text = .ok last.ordinal := readDate_eq_ok_iff.mpr ⟨last, writes, rfl⟩
    simp only [bound]
    rfl
  | @since text first writes =>
    have bound : readBound text = .ok first.ordinal := readDate_eq_ok_iff.mpr ⟨first, writes, rfl⟩
    simp only [bound]
    rfl
  | @between firstText lastText first last noDash writesFirst writesLast ordered =>
    have readFirst := readDate_eq_ok_iff.mpr ⟨first, writesFirst, rfl⟩
    have readLast := readDate_eq_ok_iff.mpr ⟨last, writesLast, rfl⟩
    have inOrder := (Date.ordinal_le_iff writesFirst.2 writesLast.2).mpr ordered
    have parts : splitAt? (· == '-') (firstText ++ '-' :: lastText) =
        some (firstText, lastText) :=
      splitAt?_beq_eq_some_iff.mpr ⟨rfl, noDash⟩
    -- The marks of one-sided periods come first, so they have to be ruled out.
    split
    next empty => simp at empty
    next isUntil =>
      exact absurd isUntil (ne_of_interval (by decide) (by decide) (by decide) writesFirst)
    next isSince =>
      exact absurd isSince (ne_of_interval (by decide) (by decide) (by decide) writesFirst)
    next =>
      rw [parts]
      simp only [readFirst, readLast, bind, Except.bind, if_neg (Int.not_lt.mpr inOrder)]
      rfl

/-! ### Reading codes -/

theorem insideBrackets?_eq_some_iff {text inner : List Char} :
    insideBrackets? text = some inner ↔
      ∃ rest, text = '[' :: inner ++ ']' :: rest ∧ ']' ∉ inner := by
  unfold insideBrackets?
  split
  next text =>
    simp only [Option.map_eq_some_iff, Prod.exists, splitAt?_beq_eq_some_iff, List.cons_append,
      List.cons.injEq, true_and]
    constructor
    · rintro ⟨_, rest, parts, rfl⟩
      exact ⟨rest, parts⟩
    · rintro ⟨rest, parts⟩
      exact ⟨inner, rest, parts, rfl⟩
  next notOpened =>
    refine iff_of_false (fun same => by cases same) ?_
    rintro ⟨rest, rfl, -⟩
    exact notOpened _ rfl

/-- The first word of a text, and what follows it. -/
theorem splitAt?_isSpace {code dates : List Char} (isWord : ∀ c ∈ code, isSpace c = false)
    (isApart : ∀ c ∈ dates.head?, isSpace c = true) :
    (splitAt? isSpace (code ++ dates)).getD (code ++ dates, []) = (code, dates.tail) := by
  cases dates with
  | nil =>
    have none : splitAt? isSpace (code ++ []) = none :=
      splitAt?_eq_none_iff.mpr (by simpa using isWord)
    rw [none, Option.getD_none, List.append_nil]
    rfl
  | cons c rest =>
    rw [splitAt?_append isWord (isApart c rfl), Option.getD_some]
    rfl

theorem trim_tail {dates : List Char} (isApart : ∀ c ∈ dates.head?, isSpace c = true) :
    trim dates.tail = trim dates := by
  cases dates with
  | nil => rfl
  | cons c rest => simp [trim, trimStart, isApart c rfl]

/-- Inside the brackets stand a code, which must not be missing, and its period. -/
theorem read_brackets {inner code dates : List Char} (closed : ']' ∉ inner)
    (parts : trim inner = code ++ dates) (isWord : ∀ c ∈ code, isSpace c = false)
    (isApart : ∀ c ∈ dates.head?, isSpace c = true) (rest : List Char) :
    read ('[' :: inner ++ ']' :: rest) =
      if code.isEmpty then .error .restrictionWithoutCode
      else (readPeriod (trim dates)).map (DatedCode.mk · (String.ofList code)) := by
  have inside : insideBrackets? ('[' :: inner ++ ']' :: rest) = some inner :=
    insideBrackets?_eq_some_iff.mpr ⟨rest, rfl, closed⟩
  simp only [read, inside, parts, splitAt?_isSpace isWord isApart, trim_tail isApart]
  cases code.isEmpty <;> cases readPeriod (trim dates) <;> rfl

/-- A dated code can be read exactly if it is written. -/
theorem read_eq_ok_iff {text : List Char} {entry : DatedCode} :
    read text = .ok entry ↔
      ∃ written, WritesCode text written entry.code ∧ written.period = entry.period := by
  constructor
  · intro isRead
    cases inside : insideBrackets? text with
    | none =>
      simp only [read, inside] at isRead
      cases isRead
    | some inner =>
      obtain ⟨rest, rfl, closed⟩ := insideBrackets?_eq_some_iff.mp inside
      have parts : trim inner = (trim inner).takeWhile (!isSpace ·) ++
          (trim inner).dropWhile (!isSpace ·) := List.takeWhile_append_dropWhile.symm
      have isWord : ∀ c ∈ (trim inner).takeWhile (!isSpace ·), isSpace c = false := fun c member =>
        by simpa using List.mem_takeWhile_imp member
      have isApart : ∀ c ∈ ((trim inner).dropWhile (!isSpace ·)).head?, isSpace c = true :=
        fun c isFirst => by
          have stopped := List.head?_dropWhile_not (!isSpace ·) (trim inner)
          rw [Option.mem_def.mp isFirst] at stopped
          simpa using stopped
      rw [read_brackets closed parts isWord isApart] at isRead
      split at isRead
      next => cases isRead
      next isNonempty =>
        cases periodRead : readPeriod (trim ((trim inner).dropWhile (!isSpace ·))) with
        | error skip =>
          rw [periodRead] at isRead
          cases isRead
        | ok period =>
          rw [periodRead] at isRead
          obtain rfl := Except.ok.inj isRead
          obtain ⟨written, writes, rfl⟩ := exists_writesPeriod periodRead
          exact ⟨written,
            .intro closed parts (by simpa using isNonempty) isWord isApart writes, rfl⟩
  · obtain ⟨period, code⟩ := entry
    rintro ⟨written, writes, rfl⟩
    cases writes with
    | @intro inner rest code dates _ closed parts isNonempty isWord isApart writes =>
      rw [read_brackets closed parts isWord isApart, if_neg (by simpa using isNonempty),
        readPeriod_of_writes writes]
      rfl

end DatedCode

end Codebook
