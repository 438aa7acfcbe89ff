/-
This file says which texts are dates. A date is written as the digits of its year, month and day,
and what follows them is not looked at. Main statement: a text has an ordinal exactly if it starts
with the digits of a day of the calendar (`ordinalOfText_eq_ok_iff`).
-/

import Codebook.Calendar

namespace Codebook

namespace Date

/-! ### The digits of a date -/

/-- The digits of a year, a month and a day, with as many for the year as given. -/
structure AreFields (yearWidth : Nat) (year month day : List Char) : Prop where
  year_length : year.length = yearWidth
  month_length : month.length = 2
  day_length : day.length = 2
  digits : ∀ c ∈ year ++ month ++ day, c.isDigit

/-- Whether a text starts with the digits of a date. Texts of eight characters and more have four
digits for the year, others have two. -/
inductive Writes : List Char → Date → Prop
  | long {year month day rest : List Char} (fields : AreFields 4 year month day) :
    Writes (year ++ month ++ day ++ rest)
      ⟨digitsValue year, digitsValue month, digitsValue day⟩
  | short {year month day rest : List Char} (fields : AreFields 2 year month day)
    (isShort : rest.length ≤ 1) :
    Writes (year ++ month ++ day ++ rest)
      ⟨expandYear (digitsValue year), digitsValue month, digitsValue day⟩

/-! ### Reading a field -/

theorem utf8Size_of_isDigit {c : Char} (digit : c.isDigit) : c.utf8Size = 1 := by
  rw [Char.utf8Size_eq_one_iff]
  simp only [Char.isDigit, Bool.and_eq_true, decide_eq_true_eq] at digit
  exact UInt32.le_trans digit.2 (by decide)

/-- What is taken stands at the start, and if it is digits it has as many characters as bytes. -/
theorem append_of_takeBytes? {bytes : Nat} {text taken left : List Char}
    (cut : takeBytes? bytes text = some (taken, left)) :
    text = taken ++ left ∧ ((∀ c ∈ taken, c.isDigit) → taken.length = bytes) := by
  fun_induction takeBytes? bytes text generalizing taken left with
  | case1 text =>
    obtain ⟨rfl, rfl⟩ := Prod.mk.inj (Option.some.inj cut)
    exact ⟨rfl, fun _ => rfl⟩
  | case2 => cases cut
  | case3 bytes c rest fits inductionHypothesis =>
    obtain ⟨⟨further, _⟩, restCut, same⟩ := Option.map_eq_some_iff.mp cut
    obtain ⟨rfl, rfl⟩ := Prod.mk.inj same
    obtain ⟨rfl, size⟩ := inductionHypothesis restCut
    refine ⟨rfl, fun areDigits => ?_⟩
    have first := utf8Size_of_isDigit (areDigits c List.mem_cons_self)
    have others := size fun other member => areDigits other (List.mem_cons_of_mem c member)
    rw [List.length_cons, others, first, Nat.add_sub_cancel]
  | case4 => cases cut

/-- Digits fill one byte each. -/
theorem takeBytes?_digits {digits : List Char} (areDigits : ∀ c ∈ digits, c.isDigit)
    (rest : List Char) :
    takeBytes? digits.length (digits ++ rest) = some (digits, rest) := by
  induction digits with
  | nil => simp [takeBytes?]
  | cons c others inductionHypothesis =>
    have size := utf8Size_of_isDigit (areDigits c List.mem_cons_self)
    have taken := inductionHypothesis fun other member =>
      areDigits other (List.mem_cons_of_mem _ member)
    simp [takeBytes?, size, taken]

/-- A field can be read exactly if the text starts with so many digits. -/
theorem readField_eq_ok_iff {width value : Nat} {text rest : List Char} :
    readField width text = .ok (value, rest) ↔
      ∃ digits, text = digits ++ rest ∧ digits.length = width ∧ (∀ c ∈ digits, c.isDigit) ∧
        value = digitsValue digits := by
  unfold readField
  constructor
  · intro read
    split at read
    next => cases read
    next field _ cut =>
      split at read
      next all =>
        obtain ⟨rfl, rfl⟩ := Prod.mk.inj (Except.ok.inj read)
        have areDigits := List.all_eq_true.mp all
        obtain ⟨shape, size⟩ := append_of_takeBytes? cut
        exact ⟨field, shape, size areDigits, areDigits, rfl⟩
      next => cases read
  · rintro ⟨digits, rfl, rfl, areDigits, rfl⟩
    rw [takeBytes?_digits areDigits]
    exact if_pos (List.all_eq_true.mpr areDigits)

/-! ### Reading a date -/

/-- Steps that may fail yield something exactly if each of them does. -/
theorem bind_eq_ok_iff {Fault First Second : Type} {first : Except Fault First}
    {further : First → Except Fault Second} {result : Second} :
    first >>= further = .ok result ↔ ∃ value, first = .ok value ∧ further value = .ok result := by
  cases first <;> simp [bind, Except.bind]

theorem AreFields.each {width : Nat} {year month day : List Char}
    (fields : AreFields width year month day) :
    (∀ c ∈ year, c.isDigit) ∧ (∀ c ∈ month, c.isDigit) ∧ ∀ c ∈ day, c.isDigit := by
  simpa [or_imp, forall_and] using fields.digits

/-- The fields of a written date are read one after the other. -/
theorem AreFields.read {width : Nat} {year month day : List Char}
    (fields : AreFields width year month day) (rest : List Char) :
    readField width (year ++ month ++ day ++ rest) = .ok (digitsValue year, month ++ day ++ rest) ∧
      readField 2 (month ++ day ++ rest) = .ok (digitsValue month, day ++ rest) ∧
      readField 2 (day ++ rest) = .ok (digitsValue day, rest) := by
  obtain ⟨yearDigits, monthDigits, dayDigits⟩ := fields.each
  refine ⟨readField_eq_ok_iff.mpr ⟨year, ?_, fields.year_length, yearDigits, rfl⟩,
    readField_eq_ok_iff.mpr ⟨month, ?_, fields.month_length, monthDigits, rfl⟩,
    readField_eq_ok_iff.mpr ⟨day, rfl, fields.day_length, dayDigits, rfl⟩⟩
  · simp only [List.append_assoc]
  · simp only [List.append_assoc]

/-- The fields of a date can be read exactly if the text starts with the digits of the date. -/
theorem readFields_eq_ok_iff {text : List Char} {date : Date} :
    readFields text = .ok date ↔ Writes text date := by
  constructor
  · simp only [readFields, bind_eq_ok_iff, Prod.exists, readField_eq_ok_iff]
    rintro ⟨_, _, ⟨year, shape, yearLength, yearDigits, rfl⟩,
      _, _, ⟨month, rfl, monthLength, monthDigits, rfl⟩,
      _, rest, ⟨day, rfl, dayLength, dayDigits, rfl⟩, read⟩
    obtain rfl := Except.ok.inj read
    obtain rfl : text = year ++ month ++ day ++ rest := by simpa using shape
    have digits : ∀ c ∈ year ++ month ++ day, c.isDigit := by
      simpa [or_imp, forall_and] using ⟨yearDigits, monthDigits, dayDigits⟩
    by_cases isLong : 7 < (year ++ month ++ day ++ rest).length
    · rw [if_pos isLong] at yearLength ⊢
      exact .long ⟨yearLength, monthLength, dayLength, digits⟩
    · rw [if_neg isLong] at yearLength ⊢
      refine .short ⟨yearLength, monthLength, dayLength, digits⟩ ?_
      simp only [List.length_append] at isLong
      omega
  · intro writes
    cases writes with
    | @long year month day rest fields =>
      have isLong : 7 < (year ++ month ++ day ++ rest).length := by
        simp only [List.length_append, fields.year_length, fields.month_length, fields.day_length]
        omega
      obtain ⟨yearRead, monthRead, dayRead⟩ := fields.read rest
      simp only [readFields, isLong, if_true, yearRead, monthRead, dayRead, bind, Except.bind]
      rfl
    | @short year month day rest fields isShort =>
      have notLong : ¬ 7 < (year ++ month ++ day ++ rest).length := by
        simp only [List.length_append, fields.year_length, fields.month_length, fields.day_length]
        omega
      obtain ⟨yearRead, monthRead, dayRead⟩ := fields.read rest
      simp only [readFields, notLong, if_false, yearRead, monthRead, dayRead, bind, Except.bind]
      rfl

/-- A date that has been read is a day of the calendar. -/
theorem ofChars_eq_ok_iff {text : List Char} {date : Date} :
    ofChars text = .ok date ↔ Writes text date ∧ date.Valid := by
  simp only [ofChars, bind_eq_ok_iff, readFields_eq_ok_iff, Valid]
  constructor
  · rintro ⟨written, writes, checked⟩
    split at checked
    next => cases checked
    next noFault =>
      obtain rfl := Except.ok.inj checked
      exact ⟨writes, noFault⟩
  · rintro ⟨writes, noFault⟩
    refine ⟨date, writes, ?_⟩
    rw [noFault]
    rfl

end Date

/-- A text has an ordinal exactly if it starts with the digits of a day of the calendar, and then it
is the ordinal of that day. -/
theorem ordinalOfText_eq_ok_iff {text : String} {ordinal : Int} :
    ordinalOfText text = .ok ordinal ↔
      ∃ date, Date.Writes text.toList date ∧ date.Valid ∧ date.ordinal = ordinal := by
  have read (date : Date) :
      Date.ofChars text.toList = .ok date ↔ Date.Writes text.toList date ∧ date.Valid :=
    Date.ofChars_eq_ok_iff
  unfold ordinalOfText
  cases result : Date.ofChars text.toList with
  | error fault =>
    refine iff_of_false (fun failed => by cases failed) ?_
    rintro ⟨date, writes, valid, -⟩
    cases result.symm.trans ((read date).mpr ⟨writes, valid⟩)
  | ok date =>
    obtain ⟨writes, valid⟩ := (read date).mp result
    constructor
    · intro same
      exact ⟨date, writes, valid, Except.ok.inj same⟩
    · rintro ⟨other, otherWrites, otherValid, rfl⟩
      cases result.symm.trans ((read other).mpr ⟨otherWrites, otherValid⟩)
      rfl

end Codebook
