/-
This file ties ordinals to the calendar. The closed form of the Julian day number counts the days of
the calendar one by one (`Date.julianDay_next`), over all years, so ordinals are in the order of the
days they stand for. Main statement: written dates, long or short, have ordinals that compare as the
days do (`Date.ordinals_follow_calendar`).
-/

import Codebook.Proofs.WrittenDates
import Mathlib.Data.Prod.Lex
import Mathlib.Order.Monotone.Basic
import Mathlib.Tactic.IntervalCases

namespace Codebook.Date

/-! ### The days of the calendar -/

theorem valid_iff {date : Date} :
    date.Valid ↔ (1 ≤ date.month ∧ date.month ≤ 12) ∧ 1 ≤ date.day ∧
      date.day ≤ daysInMonth date.year date.month := by
  unfold Valid fault?
  grind

/-- The first day of the following month. -/
def nextMonth (date : Date) : Date :=
  if date.month < 12 then ⟨date.year, date.month + 1, 1⟩ else ⟨date.year + 1, 1, 1⟩

/-- The following day. -/
def next (date : Date) : Date :=
  if date.day < daysInMonth date.year date.month then { date with day := date.day + 1 }
  else date.nextMonth

theorem daysInMonth_pos (year : Int) (month : Nat) : 0 < daysInMonth year month := by
  unfold daysInMonth
  split
  · split <;> decide
  · decide
  · decide
  · decide
  · decide
  · decide

theorem valid_next {date : Date} (valid : date.Valid) : date.next.Valid := by
  rw [valid_iff] at valid ⊢
  obtain ⟨⟨monthLow, monthHigh⟩, -, -⟩ := valid
  unfold next nextMonth
  split
  next inMonth => exact ⟨⟨monthLow, monthHigh⟩, Nat.le_add_left 1 _, inMonth⟩
  next =>
    split
    next early => exact ⟨⟨Nat.le_add_left 1 _, early⟩, Nat.le_refl 1, daysInMonth_pos _ _⟩
    next => exact ⟨⟨Nat.le_refl 1, by simp⟩, Nat.le_refl 1, daysInMonth_pos _ _⟩

/-! ### Counting days -/

/-- Within a month the Julian day number goes with the day. -/
theorem julianDay_eq_first_add (date : Date) :
    date.julianDay = julianDay ⟨date.year, date.month, 1⟩ + (date.day - 1) := by
  simp only [julianDay]
  omega

/-- The first days of two months are as many days apart as the earlier one has. Every month has its
own share of the days of a year, and those around the leap day depend on the year. -/
theorem julianDay_nextMonth {date : Date} (low : 1 ≤ date.month) (high : date.month ≤ 12) :
    date.nextMonth.julianDay =
      julianDay ⟨date.year, date.month, 1⟩ + daysInMonth date.year date.month := by
  obtain ⟨year, month, day⟩ := date
  dsimp only at low high
  interval_cases month <;> simp only [nextMonth, julianDay, daysInMonth, isLeapYear] <;> grind

/-- The following day has the following number. -/
theorem julianDay_next {date : Date} (valid : date.Valid) :
    date.next.julianDay = date.julianDay + 1 := by
  obtain ⟨⟨low, high⟩, -, dayHigh⟩ := valid_iff.mp valid
  unfold next
  split
  next inMonth =>
    rw [julianDay_eq_first_add, julianDay_eq_first_add date]
    dsimp only
    omega
  next last =>
    rw [julianDay_nextMonth low high, julianDay_eq_first_add date]
    omega

/-! ### The order of days -/

/-- A date as days are ordered: by the year first, then by the month, then by the day. -/
def triple (date : Date) : Int ×ₗ Nat ×ₗ Nat :=
  toLex (date.year, toLex (date.month, date.day))

theorem triple_injective : Function.Injective triple := by
  rintro ⟨year, month, day⟩ ⟨otherYear, otherMonth, otherDay⟩ same
  simpa [triple] using same

/-- Months counted through over all years. -/
def monthIndex (date : Date) : Int :=
  12 * date.year + date.month - 1

/-- The first day of the month with the given index. -/
def firstOfMonth (index : Int) : Date :=
  ⟨index / 12, (index % 12).toNat + 1, 1⟩

theorem firstOfMonth_monthIndex {date : Date} (low : 1 ≤ date.month) (high : date.month ≤ 12) :
    firstOfMonth date.monthIndex = ⟨date.year, date.month, 1⟩ := by
  simp only [firstOfMonth, monthIndex, mk.injEq, and_true]
  omega

theorem nextMonth_firstOfMonth (index : Int) :
    (firstOfMonth index).nextMonth = firstOfMonth (index + 1) := by
  unfold nextMonth firstOfMonth
  dsimp only
  by_cases early : (index % 12).toNat + 1 < 12
  · rw [if_pos early, mk.injEq]
    omega
  · rw [if_neg early, mk.injEq]
    omega

/-- Later months start later. -/
theorem julianDay_firstOfMonth_le {first second : Int} (ordered : first ≤ second) :
    (firstOfMonth first).julianDay ≤ (firstOfMonth second).julianDay := by
  have step (index : Int) :
      (firstOfMonth index).julianDay ≤ (firstOfMonth (index + 1)).julianDay := by
    have low : 1 ≤ (firstOfMonth index).month := Nat.le_add_left 1 _
    have high : (firstOfMonth index).month ≤ 12 := by
      simp only [firstOfMonth]
      omega
    rw [← nextMonth_firstOfMonth, julianDay_nextMonth low high]
    show (firstOfMonth index).julianDay ≤ (firstOfMonth index).julianDay + _
    omega
  exact monotone_int_of_le_succ step ordered

/-- A day of the calendar lies in its month: not before its first day, and before the first day of
the next month. -/
theorem julianDay_bounds {date : Date} (valid : date.Valid) :
    (firstOfMonth date.monthIndex).julianDay ≤ date.julianDay ∧
      date.julianDay < (firstOfMonth (date.monthIndex + 1)).julianDay := by
  obtain ⟨⟨low, high⟩, dayLow, dayHigh⟩ := valid_iff.mp valid
  rw [← nextMonth_firstOfMonth, firstOfMonth_monthIndex low high, julianDay_eq_first_add date]
  show _ ∧ _ < date.nextMonth.julianDay
  rw [julianDay_nextMonth low high]
  constructor <;> omega

/-- Later days have larger Julian day numbers. -/
theorem julianDay_lt_of_triple_lt {left right : Date} (leftValid : left.Valid)
    (rightValid : right.Valid) (before : left.triple < right.triple) :
    left.julianDay < right.julianDay := by
  simp only [triple, Prod.Lex.toLex_lt_toLex] at before
  obtain ⟨leftMonth, -, -⟩ := valid_iff.mp leftValid
  obtain ⟨rightMonth, -, -⟩ := valid_iff.mp rightValid
  by_cases sameMonth : left.year = right.year ∧ left.month = right.month
  · rw [julianDay_eq_first_add left, julianDay_eq_first_add right, sameMonth.1, sameMonth.2]
    omega
  · have months : left.monthIndex + 1 ≤ right.monthIndex := by
      simp only [monthIndex]
      omega
    calc left.julianDay
      _ < (firstOfMonth (left.monthIndex + 1)).julianDay := (julianDay_bounds leftValid).2
      _ ≤ (firstOfMonth right.monthIndex).julianDay := julianDay_firstOfMonth_le months
      _ ≤ right.julianDay := (julianDay_bounds rightValid).1

/-- Ordinals compare as the days they stand for. -/
theorem cmp_ordinal {left right : Date} (leftValid : left.Valid) (rightValid : right.Valid) :
    cmp left.ordinal right.ordinal = cmp left.triple right.triple := by
  rcases lt_trichotomy left.triple right.triple with before | same | after
  · rw [(cmp_eq_lt_iff _ _).mpr before, cmp_eq_lt_iff]
    exact Int.sub_lt_sub_right (julianDay_lt_of_triple_lt leftValid rightValid before) _
  · rw [triple_injective same, cmp_self_eq_eq, cmp_self_eq_eq]
  · rw [(cmp_eq_gt_iff _ _).mpr after, cmp_eq_gt_iff]
    exact Int.sub_lt_sub_right (julianDay_lt_of_triple_lt rightValid leftValid after) _

theorem ordinal_le_iff {left right : Date} (leftValid : left.Valid) (rightValid : right.Valid) :
    left.ordinal ≤ right.ordinal ↔ left.triple ≤ right.triple :=
  le_iff_le_of_cmp_eq_cmp (cmp_ordinal leftValid rightValid)

/-- Ordinals follow the calendar: in every year the day after a day has the next Julian day number,
written dates compare, by their ordinals, as the days they write, and the count starts on 1 January
1601. -/
theorem ordinals_follow_calendar :
    (∀ date : Date, date.Valid → date.next.Valid ∧ date.next.julianDay = date.julianDay + 1) ∧
      (∀ (left right : String) (first second : Int),
        ordinalOfText left = .ok first → ordinalOfText right = .ok second →
          ∃ leftDate rightDate : Date,
            (Writes left.toList leftDate ∧ leftDate.Valid) ∧
            (Writes right.toList rightDate ∧ rightDate.Valid) ∧
            cmp first second = cmp leftDate.triple rightDate.triple ∧
            (first = second ↔ leftDate = rightDate)) ∧
      ordinal ⟨1601, 1, 1⟩ = 1 := by
  refine ⟨fun date valid => ⟨valid_next valid, julianDay_next valid⟩, ?_, by decide⟩
  intro left right first second leftRead rightRead
  obtain ⟨leftDate, leftWrites, leftValid, rfl⟩ := ordinalOfText_eq_ok_iff.mp leftRead
  obtain ⟨rightDate, rightWrites, rightValid, rfl⟩ := ordinalOfText_eq_ok_iff.mp rightRead
  have compared := cmp_ordinal leftValid rightValid
  refine ⟨leftDate, rightDate, ⟨leftWrites, leftValid⟩, ⟨rightWrites, rightValid⟩, compared, ?_⟩
  rw [← cmp_eq_eq_iff, compared, cmp_eq_eq_iff, triple_injective.eq_iff]

/-- The last two days of February 2000, and a short date before a long one. -/
theorem ordinals_follow_leap_day :
    (Date.Valid ⟨2000, 2, 28⟩ ∧ julianDay ⟨2000, 2, 29⟩ = julianDay ⟨2000, 2, 28⟩ + 1) ∧
      ∃ leapDay firstOfMarch, ordinalOfText "000229" = .ok leapDay ∧
        ordinalOfText "20000301" = .ok firstOfMarch ∧ ∃ leftDate rightDate : Date,
          Writes "000229".toList leftDate ∧ Writes "20000301".toList rightDate ∧
            cmp leapDay firstOfMarch = cmp leftDate.triple rightDate.triple := by
  obtain ⟨nextDay, compared, -⟩ := ordinals_follow_calendar
  have valid : Date.Valid ⟨2000, 2, 28⟩ := by decide
  have leapRead : ordinalOfText "000229" = .ok (ordinal ⟨2000, 2, 29⟩) := by decide +kernel
  have marchRead : ordinalOfText "20000301" = .ok (ordinal ⟨2000, 3, 1⟩) := by decide +kernel
  obtain ⟨leftDate, rightDate, ⟨leftWrites, -⟩, ⟨rightWrites, -⟩, sameOrder, -⟩ :=
    compared _ _ _ _ leapRead marchRead
  exact ⟨⟨valid, (nextDay _ valid).2⟩, _, _, leapRead, marchRead, leftDate, rightDate, leftWrites,
    rightWrites, sameOrder⟩

end Codebook.Date
