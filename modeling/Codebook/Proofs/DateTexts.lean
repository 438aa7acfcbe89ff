/-
This file says, character by character, which texts are dates. A text of eight characters or more
has its digits in the first eight, any other in the first six, and they have to be the digits of a
day of the Gregorian calendar, whose months and leap years are written down here independently.
Main statement: exactly these texts have an ordinal, it depends on those characters only, and a
short date has the ordinal of the long one in which its century is written out
(`Date.ordinals_by_characters`).
-/

import Codebook.Proofs.CalendarOrder
import Mathlib.Data.List.Induction
import Mathlib.Data.Nat.Digits.Defs
import Mathlib.Tactic.MkIffOfInductiveProp

namespace Codebook.Date

/-! ### The Gregorian calendar -/

/-- The lengths of the months in a common year. -/
def monthLengths : List Nat :=
  [31, 28, 31, 30, 31, 30, 31, 31, 30, 31, 30, 31]

/-- Four divides a leap year, and four hundred divides one that ends a century. -/
def IsLeap (year : Int) : Prop :=
  4 ∣ year ∧ (100 ∣ year → 400 ∣ year)

/-- The days of the Gregorian calendar: those that every year has, and the leap days. -/
inductive IsDay : Date → Prop
  | common {year : Int} {month day length : Nat} (isMonth : monthLengths[month]? = some length)
    (inMonth : day < length) : IsDay ⟨year, month + 1, day + 1⟩
  | leapDay {year : Int} (isLeap : IsLeap year) : IsDay ⟨year, 2, 29⟩

theorem isLeapYear_eq_true_iff {year : Int} : isLeapYear year = true ↔ IsLeap year := by
  simp only [isLeapYear, IsLeap, Int.dvd_iff_emod_eq_zero]
  split
  next => exact iff_of_true rfl (by omega)
  next =>
    split
    next => exact iff_of_false Bool.false_ne_true (by omega)
    next => exact decide_eq_true_iff.trans (by omega)

/-- Only a leap day goes beyond the length that a month has in every year. -/
theorem daysInMonth_eq {month length : Nat} (isMonth : monthLengths[month]? = some length)
    (year : Int) :
    daysInMonth year (month + 1) = if month = 1 ∧ isLeapYear year then 29 else length := by
  have isThere : month < 12 := (List.getElem?_eq_some_iff.mp isMonth).1
  interval_cases month <;> obtain rfl := Option.some.inj isMonth <;> simp [daysInMonth]

/-- A date in a month of the year is a day of the calendar if it lies within the length that the
month has in every year, or if it is the leap day. -/
theorem valid_succ_iff {year : Int} {month day length : Nat}
    (isMonth : monthLengths[month]? = some length) :
    Valid ⟨year, month + 1, day + 1⟩ ↔ day < length ∨ month = 1 ∧ IsLeap year ∧ day = 28 := by
  have isThere : month < 12 := (List.getElem?_eq_some_iff.mp isMonth).1
  rw [valid_iff]
  dsimp only
  rw [daysInMonth_eq isMonth, ← isLeapYear_eq_true_iff]
  split
  next february =>
    obtain ⟨rfl, isLeap⟩ := february
    obtain rfl := Option.some.inj isMonth
    simp only [isLeap, true_and]
    omega
  next noLeapDay =>
    have notLeapDay : ¬ (month = 1 ∧ isLeapYear year = true ∧ day = 28) := fun leapDay =>
      noLeapDay ⟨leapDay.1, leapDay.2.1⟩
    rw [or_iff_left notLeapDay]
    omega

theorem valid_iff_isDay {date : Date} : date.Valid ↔ date.IsDay := by
  constructor
  · intro valid
    obtain ⟨⟨monthLow, monthHigh⟩, dayLow, -⟩ := valid_iff.mp valid
    obtain ⟨year, month, day⟩ := date
    obtain ⟨month, rfl⟩ := Nat.exists_eq_add_of_le' monthLow
    obtain ⟨day, rfl⟩ := Nat.exists_eq_add_of_le' dayLow
    have isMonth := List.getElem?_eq_getElem (l := monthLengths) (i := month) monthHigh
    rcases (valid_succ_iff isMonth).mp valid with inMonth | ⟨rfl, isLeap, rfl⟩
    · exact .common isMonth inMonth
    · exact .leapDay isLeap
  · rintro (⟨isMonth, inMonth⟩ | isLeap)
    · exact (valid_succ_iff isMonth).mpr (.inl inMonth)
    · exact (valid_succ_iff rfl).mpr (.inr ⟨rfl, isLeap, rfl⟩)

instance : DecidablePred IsDay := fun _ => decidable_of_iff _ valid_iff_isDay

/-! ### Texts -/

/-- The number that decimal digits write. -/
def decimal (digits : List Char) : Nat :=
  Nat.ofDigits 10 (digits.reverse.map fun c => c.toNat - '0'.toNat)

theorem digitsValue_eq_decimal (digits : List Char) : digitsValue digits = decimal digits := by
  induction digits using List.reverseRecOn with
  | nil => rfl
  | append_singleton front c inductionHypothesis =>
    have units : digitsValue (front ++ [c]) = 10 * digitsValue front + (c.toNat - '0'.toNat) := by
      simp [digitsValue]
    rw [units, inductionHypothesis, decimal, decimal, List.reverse_append, List.reverse_singleton,
      List.singleton_append, List.map_cons, Nat.ofDigits_cons, Nat.add_comm]

/-- The date that digits write. The first ones are those of the year, as many as given, and then
come two for the month and two for the day. -/
def ofDigits (yearWidth : Nat) (yearOf : Nat → Int) (digits : List Char) : Date where
  year := yearOf (decimal (digits.take yearWidth))
  month := decimal ((digits.drop yearWidth).take 2)
  day := decimal (digits.drop (yearWidth + 2))

/-- The date that `YYYYMMDD` writes. -/
def ofLong : List Char → Date :=
  ofDigits 4 fun year => year

/-- The date that `YYMMDD` writes. -/
def ofShort : List Char → Date :=
  ofDigits 2 fun year => if year ≤ 30 then 2000 + year else 1900 + year

/-- A text of at least eight characters, the first eight of which write a day. -/
@[mk_iff] structure IsLongDate (text : List Char) : Prop where
  length : 8 ≤ text.length
  digits : ∀ c ∈ text.take 8, c.isDigit
  isDay : (ofLong (text.take 8)).IsDay

/-- A text of six or seven characters, the first six of which write a day. -/
@[mk_iff] structure IsShortDate (text : List Char) : Prop where
  length : text.length = 6 ∨ text.length = 7
  digits : ∀ c ∈ text.take 6, c.isDigit
  isDay : (ofShort (text.take 6)).IsDay

instance : DecidablePred IsLongDate := fun text =>
  decidable_of_iff
    (8 ≤ text.length ∧ (text.take 8).all Char.isDigit ∧ (ofLong (text.take 8)).IsDay)
    (by rw [isLongDate_iff, List.all_eq_true])

instance : DecidablePred IsShortDate := fun text =>
  decidable_of_iff
    ((text.length = 6 ∨ text.length = 7) ∧ (text.take 6).all Char.isDigit ∧
      (ofShort (text.take 6)).IsDay)
    (by rw [isShortDate_iff, List.all_eq_true])

/-! ### Reading by characters -/

variable {yearWidth : Nat} {digits year month day text : List Char}

/-- So many digits are the fields of a date. -/
theorem exists_areFields (yearWidth : Nat) (length : digits.length = yearWidth + 4)
    (areDigits : ∀ c ∈ digits, c.isDigit) :
    ∃ year month day, AreFields yearWidth year month day ∧ digits = year ++ month ++ day := by
  have shape : digits = digits.take yearWidth ++ (digits.drop yearWidth).take 2 ++
      digits.drop (yearWidth + 2) := by
    rw [← List.drop_drop, List.append_assoc, List.take_append_drop, List.take_append_drop]
  refine ⟨_, _, _, ⟨?_, ?_, ?_, shape ▸ areDigits⟩, shape⟩
  · rw [List.length_take, length]
    omega
  · rw [List.length_take, List.length_drop, length]
    omega
  · rw [List.length_drop, length]
    omega

theorem AreFields.length_append (fields : AreFields yearWidth year month day) :
    (year ++ month ++ day).length = yearWidth + 4 := by
  rw [List.length_append, List.length_append, fields.year_length, fields.month_length,
    fields.day_length]

theorem AreFields.ofDigits_append (fields : AreFields yearWidth year month day)
    (yearOf : Nat → Int) :
    ofDigits yearWidth yearOf (year ++ month ++ day) =
      ⟨yearOf (digitsValue year), digitsValue month, digitsValue day⟩ := by
  have upToDay : (year ++ month).length = yearWidth + 2 := by
    rw [List.length_append, fields.year_length, fields.month_length]
  have yearDigits : (year ++ month ++ day).take yearWidth = year := by
    rw [List.append_assoc, List.take_left' fields.year_length]
  have monthDigits : ((year ++ month ++ day).drop yearWidth).take 2 = month := by
    rw [List.append_assoc, List.drop_left' fields.year_length, List.take_left' fields.month_length]
  rw [ofDigits, yearDigits, monthDigits, List.drop_left' upToDay, digitsValue_eq_decimal,
    digitsValue_eq_decimal, digitsValue_eq_decimal]

/-- The years of short dates are expanded as they are read. -/
theorem ofShort_eq : ofShort = ofDigits 2 fun year => (expandYear year : Int) := by
  unfold ofShort expandYear
  push_cast
  rfl

theorem AreFields.take_append (fields : AreFields yearWidth year month day) (rest : List Char) :
    (year ++ month ++ day ++ rest).take (yearWidth + 4) = year ++ month ++ day :=
  List.take_left' fields.length_append

theorem writes_of_long (isLong : 8 ≤ text.length) (areDigits : ∀ c ∈ text.take 8, c.isDigit) :
    Writes text (ofLong (text.take 8)) := by
  obtain ⟨year, month, day, fields, front⟩ :=
    exists_areFields 4 (List.length_take_of_le isLong) areDigits
  have writes := @Writes.long year month day (text.drop 8) fields
  rw [← fields.ofDigits_append, ← front, List.take_append_drop] at writes
  exact writes

theorem writes_of_short (length : text.length = 6 ∨ text.length = 7)
    (areDigits : ∀ c ∈ text.take 6, c.isDigit) : Writes text (ofShort (text.take 6)) := by
  obtain ⟨year, month, day, fields, front⟩ :=
    exists_areFields 2 (List.length_take_of_le (by omega)) areDigits
  have isShort : (text.drop 6).length ≤ 1 := by
    rw [List.length_drop]
    omega
  have writes := Writes.short fields isShort
  rw [← fields.ofDigits_append fun year => (expandYear year : Int), ← ofShort_eq, ← front,
    List.take_append_drop] at writes
  exact writes

/-- A text writes the date of its first characters. -/
theorem writes_iff {date : Date} :
    Writes text date ↔
      (8 ≤ text.length ∧ (∀ c ∈ text.take 8, c.isDigit) ∧ date = ofLong (text.take 8)) ∨
        ((text.length = 6 ∨ text.length = 7) ∧ (∀ c ∈ text.take 6, c.isDigit) ∧
          date = ofShort (text.take 6)) := by
  constructor
  · intro writes
    cases writes with
    | @long year month day rest fields =>
      have front : (year ++ month ++ day ++ rest).take 8 = year ++ month ++ day :=
        fields.take_append rest
      rw [front, ofLong, fields.ofDigits_append, List.length_append, fields.length_append]
      exact .inl ⟨Nat.le_add_right 8 _, fields.digits, rfl⟩
    | @short year month day rest fields isShort =>
      have front : (year ++ month ++ day ++ rest).take 6 = year ++ month ++ day :=
        fields.take_append rest
      rw [front, ofShort_eq, fields.ofDigits_append, List.length_append, fields.length_append]
      exact .inr ⟨by omega, fields.digits, rfl⟩
  · rintro (⟨isLong, areDigits, rfl⟩ | ⟨length, areDigits, rfl⟩)
    · exact writes_of_long isLong areDigits
    · exact writes_of_short length areDigits

/-! ### Ordinals -/

theorem ordinalOfText_of_isLongDate {text : String} (isDate : IsLongDate text.toList) :
    ordinalOfText text = .ok (ofLong (text.toList.take 8)).ordinal :=
  ordinalOfText_eq_ok_iff.mpr
    ⟨_, writes_iff.mpr (.inl ⟨isDate.length, isDate.digits, rfl⟩), valid_iff_isDay.mpr isDate.isDay,
      rfl⟩

theorem ordinalOfText_of_isShortDate {text : String} (isDate : IsShortDate text.toList) :
    ordinalOfText text = .ok (ofShort (text.toList.take 6)).ordinal :=
  ordinalOfText_eq_ok_iff.mpr
    ⟨_, writes_iff.mpr (.inr ⟨isDate.length, isDate.digits, rfl⟩), valid_iff_isDay.mpr isDate.isDay,
      rfl⟩

/-- The first two digits of a year of which the last two are given. -/
def century (yearDigits : List Char) : List Char :=
  if decimal yearDigits ≤ 30 then ['2', '0'] else ['1', '9']

theorem decimal_append (front back : List Char) :
    decimal (front ++ back) = 10 ^ back.length * decimal front + decimal back := by
  rw [decimal, List.reverse_append, List.map_append, Nat.ofDigits_append, List.length_map,
    List.length_reverse, Nat.add_comm]
  rfl

theorem decimal_century_append {yearDigits : List Char} (length : yearDigits.length = 2) :
    (decimal (century yearDigits ++ yearDigits) : Int) =
      if decimal yearDigits ≤ 30 then (2000 : Int) + decimal yearDigits
      else 1900 + decimal yearDigits := by
  have twenty : decimal ['2', '0'] = 20 := by decide
  have nineteen : decimal ['1', '9'] = 19 := by decide
  rw [decimal_append, length, century]
  split <;> simp [twenty, nineteen]

theorem length_century (yearDigits : List Char) : (century yearDigits).length = 2 := by
  unfold century
  split <;> rfl

theorem isDigit_of_mem_century {yearDigits : List Char} :
    ∀ c ∈ century yearDigits, c.isDigit := by
  unfold century
  split <;> exact List.all_eq_true.mp rfl

theorem take_century_append (length : text.length = 6) :
    (century (text.take 2) ++ text).take 8 = century (text.take 2) ++ text :=
  List.take_of_length_le (by rw [List.length_append, length_century, length])

/-- With its century written out, a date stays the same. -/
theorem ofLong_century {digits : List Char} (length : digits.length = 6) :
    ofLong (century (digits.take 2) ++ digits) = ofShort digits := by
  have yearLength : (digits.take 2).length = 2 := List.length_take_of_le (by omega)
  have centuryLength := length_century (digits.take 2)
  have year : (century (digits.take 2) ++ digits).take 4 =
      century (digits.take 2) ++ digits.take 2 := by
    rw [List.take_append, centuryLength, List.take_of_length_le (by omega)]
  have behind (count : Nat) :
      (century (digits.take 2) ++ digits).drop (2 + count) = digits.drop count := by
    rw [← List.drop_drop, List.drop_left' centuryLength]
  unfold ofLong ofShort ofDigits
  rw [year, behind 2, behind 4, mk.injEq]
  exact ⟨decimal_century_append yearLength, rfl, rfl⟩

theorem IsShortDate.isLongDate_century (isDate : IsShortDate text) (length : text.length = 6) :
    IsLongDate (century (text.take 2) ++ text) := by
  obtain ⟨-, areDigits, isDay⟩ := isDate
  rw [List.take_of_length_le (Nat.le_of_eq length)] at areDigits isDay
  refine ⟨?_, ?_, ?_⟩
  · rw [List.length_append, length_century, length]
  · rw [take_century_append length, List.forall_mem_append]
    exact ⟨isDigit_of_mem_century, areDigits⟩
  · rw [take_century_append length, ofLong_century length]
    exact isDay

/-- The texts that have an ordinal are those that start with the digits of a day: eight of them if
the text has eight characters or more, and six if it has six or seven. The ordinal is that of the
day these digits write, whatever else the text holds, and a date of six digits has the ordinal of
the eight digits with its century written out. -/
theorem ordinals_by_characters :
    (∀ text : String, (∃ ordinal, ordinalOfText text = .ok ordinal) ↔
        IsLongDate text.toList ∨ IsShortDate text.toList) ∧
      (∀ text : String, IsLongDate text.toList →
        ordinalOfText text = .ok (ofLong (text.toList.take 8)).ordinal) ∧
      (∀ text : String, IsShortDate text.toList →
        ordinalOfText text = .ok (ofShort (text.toList.take 6)).ordinal) ∧
      (∀ text : String, IsShortDate text.toList → text.length = 6 →
        ordinalOfText (String.ofList (century (text.toList.take 2)) ++ text) =
          ordinalOfText text) := by
  refine ⟨fun text => ⟨?_, ?_⟩, fun _ => ordinalOfText_of_isLongDate,
    fun _ => ordinalOfText_of_isShortDate, fun text isDate length => ?_⟩
  · rintro ⟨ordinal, read⟩
    obtain ⟨date, writes, valid, -⟩ := ordinalOfText_eq_ok_iff.mp read
    rw [valid_iff_isDay] at valid
    rcases writes_iff.mp writes with ⟨isLong, areDigits, rfl⟩ | ⟨isShort, areDigits, rfl⟩
    · exact .inl ⟨isLong, areDigits, valid⟩
    · exact .inr ⟨isShort, areDigits, valid⟩
  · rintro (isDate | isDate)
    · exact ⟨_, ordinalOfText_of_isLongDate isDate⟩
    · exact ⟨_, ordinalOfText_of_isShortDate isDate⟩
  · rw [← String.length_toList] at length
    have written : (String.ofList (century (text.toList.take 2)) ++ text).toList =
        century (text.toList.take 2) ++ text.toList := by
      rw [String.toList_append, String.toList_ofList]
    have isLong := isDate.isLongDate_century length
    rw [← written] at isLong
    rw [ordinalOfText_of_isLongDate isLong, ordinalOfText_of_isShortDate isDate, written,
      take_century_append length, ofLong_century length,
      List.take_of_length_le (Nat.le_of_eq length)]

/-- The leap day of 2000 in seven characters that take eight bytes, and in eight digits. -/
theorem ordinal_leap_day_in_both_widths :
    IsShortDate "000229é".toList ∧ IsLongDate "20000229".toList ∧
      ordinalOfText "000229é" = .ok (ordinal ⟨2000, 2, 29⟩) ∧
      ordinalOfText "20000229" = .ok (ordinal ⟨2000, 2, 29⟩) ∧
      ordinalOfText "20000229" = ordinalOfText "000229" := by
  obtain ⟨-, ofLongDate, ofShortDate, written⟩ := ordinals_by_characters
  have short : IsShortDate "000229é".toList := by decide +kernel
  have long : IsLongDate "20000229".toList := by decide +kernel
  exact ⟨short, long, ofShortDate _ short, ofLongDate _ long,
    written "000229" (by decide +kernel) (by decide +kernel)⟩

end Codebook.Date
