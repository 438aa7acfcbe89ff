/-
This file says how the forms of a dated code are read back. A code is a word without a `]`, behind
it come strings of digits in the place of dates, and white space may stand around all parts. Main
statement: every form is read as the period of its dates, and it is refused if its interval is
reversed or one of its dates is no day; so no interval in a compiled dictionary ends before it
starts (`DatedCode.forms_read_back`).
-/

import Codebook.Proofs.ActorFiles
import Codebook.Proofs.CodesOnDays
import Codebook.Proofs.UpperCase

namespace Codebook

open Text

/-! ### White space around words -/

namespace Text

theorem isSpace_of_isDigit {c : Char} (digit : c.isDigit) : isSpace c = false := by
  obtain ⟨fromZero, toNine⟩ : 48 ≤ c.toNat ∧ c.toNat ≤ 57 := by
    simp only [Char.isDigit, Bool.and_eq_true, decide_eq_true_eq] at digit
    exact ⟨UInt32.le_iff_toNat_le.mp digit.1, UInt32.le_iff_toNat_le.mp digit.2⟩
  exact IsSpaceless.isSpace (by decide) fromZero toNine

theorem trim_trimEnd_append_cons {c : Char} (notSpace : isSpace c = false)
    (front rest : List Char) :
    trim (trimEnd (front ++ c :: rest)) = trimStart front ++ c :: trimEnd rest := by
  rw [trimEnd_append_cons notSpace, trim_append_cons notSpace, trimEnd_trimEnd]

theorem not_mem_of_isBlank {c : Char} (notSpace : isSpace c = false) {text : List Char}
    (blank : isBlank text = true) : c ∉ text := fun member => by
  rw [List.all_eq_true.mp blank c member] at notSpace
  cases notSpace

variable {front word back : List Char}

/-- White space before a word is cut off at the start, and what is left behind it stays white
space. -/
theorem exists_trimStart_around (frontBlank : isBlank front = true)
    (isWord : ∀ c ∈ word, isSpace c = false) (backBlank : isBlank back = true) :
    ∃ blank, isBlank blank = true ∧ trimStart (front ++ (word ++ back)) = word ++ blank := by
  rw [trimStart_of_blank frontBlank]
  cases word with
  | nil => exact ⟨[], rfl, trimStart_eq_nil_iff.mpr backBlank⟩
  | cons c rest =>
    refine ⟨back, backBlank, ?_⟩
    exact trimStart_append_cons (isWord c List.mem_cons_self) [] (rest ++ back)

theorem exists_trimEnd_around (frontBlank : isBlank front = true)
    (isWord : ∀ c ∈ word, isSpace c = false) (backBlank : isBlank back = true) :
    ∃ blank, isBlank blank = true ∧ trimEnd (front ++ (word ++ back)) = blank ++ word := by
  cases word with
  | nil =>
    have bothBlank : isBlank (front ++ back) = true := by
      rw [isBlank, List.all_append, Bool.and_eq_true]
      exact ⟨frontBlank, backBlank⟩
    exact ⟨[], rfl, trimEnd_eq_nil_iff.mpr bothBlank⟩
  | cons c rest =>
    refine ⟨front, frontBlank, ?_⟩
    have kept := dropEndWhile_append (List.cons_ne_nil c rest) isWord front back
    rwa [← trimEnd, ← trimEnd, trimEnd_eq_nil_iff.mpr backBlank, List.append_nil] at kept

/-- A word is what is left of a text with white space around it. -/
theorem trim_around (frontBlank : isBlank front = true) (isWord : ∀ c ∈ word, isSpace c = false)
    (backBlank : isBlank back = true) : trim (front ++ (word ++ back)) = word := by
  obtain ⟨blank, isBlank, start⟩ := exists_trimStart_around frontBlank isWord backBlank
  rw [trim, start]
  cases word with
  | nil => exact trimEnd_eq_nil_iff.mpr isBlank
  | cons c rest =>
    have kept := dropEndWhile_append (List.cons_ne_nil c rest) isWord [] blank
    rwa [← trimEnd, ← trimEnd, trimEnd_eq_nil_iff.mpr isBlank, List.append_nil] at kept

end Text

/-- Digits with white space around them are the leading digits. -/
theorem leadingDigits_around {front digits back : List Char} (frontBlank : isBlank front = true)
    (areDigits : ∀ c ∈ digits, c.isDigit) (backBlank : isBlank back = true) :
    leadingDigits (front ++ (digits ++ back)) = digits := by
  have isWord : ∀ c ∈ digits, isSpace c = false := fun c member =>
    isSpace_of_isDigit (areDigits c member)
  obtain ⟨blank, isBlank, start⟩ := exists_trimStart_around frontBlank isWord backBlank
  have stops : blank.takeWhile Char.isDigit = [] := by
    cases blank with
    | nil => rfl
    | cons c rest =>
      have noDigit : ¬ c.isDigit := fun digit => by
        have isBlank : isSpace c = true := List.all_eq_true.mp isBlank c List.mem_cons_self
        rw [isSpace_of_isDigit digit] at isBlank
        cases isBlank
      exact List.takeWhile_cons_of_neg noDigit
  rw [leadingDigits, start, List.takeWhile_append_of_pos areDigits, stops, List.append_nil]

/-! ### Forms -/

/-- An interval ends before it starts, by the order of the calendar. -/
def WrittenPeriod.IsReversed : WrittenPeriod → Prop
  | between first last => last.triple < first.triple
  | _ => False

instance : DecidablePred WrittenPeriod.IsReversed
  | .between first last => inferInstanceAs (Decidable (last.triple < first.triple))
  | .always | .until _ | .since _ => inferInstanceAs (Decidable False)

/-- What is written behind a code, with texts in the place of dates. -/
inductive DateForm
  | always
  | until (date : List Char)
  | since (date : List Char)
  | between (first last : List Char)

namespace DateForm

def dates : DateForm → List (List Char)
  | always => []
  | .until date => [date]
  | since date => [date]
  | between first last => [first, last]

/-- There are only digits in the place of dates. -/
def HasDigits (form : DateForm) : Prop :=
  ∀ date ∈ form.dates, ∀ c ∈ date, c.isDigit

instance (form : DateForm) : Decidable form.HasDigits :=
  decidable_of_iff (form.dates.all (·.all Char.isDigit)) (by simp [HasDigits])

/-- How a form is written. Some white space sets dates apart from the code, and any may stand around
the other parts. -/
inductive Spells : DateForm → List Char → Prop
  | always {behind : List Char} (blank : isBlank behind = true) : Spells always behind
  | until {apart front date back : List Char} (isApart : apart ≠ [])
    (blank : ∀ space ∈ [apart, front, back], isBlank space = true) :
    Spells (.until date) (apart ++ '<' :: (front ++ (date ++ back)))
  | since {apart front date back : List Char} (isApart : apart ≠ [])
    (blank : ∀ space ∈ [apart, front, back], isBlank space = true) :
    Spells (since date) (apart ++ '>' :: (front ++ (date ++ back)))
  | between {apart first beforeDash behindDash last back : List Char} (isApart : apart ≠ [])
    (blank : ∀ space ∈ [apart, beforeDash, behindDash, back], isBlank space = true) :
    Spells (between first last)
      (apart ++ (first ++ beforeDash) ++ '-' :: (behindDash ++ (last ++ back)))

/-- The dates of a form are days, which give it its period. -/
inductive WritesDays : DateForm → WrittenPeriod → Prop
  | always : WritesDays always .always
  | until {date : List Char} {last : Date} (writes : WritesDay date last) :
    WritesDays (.until date) (.until last)
  | since {date : List Char} {first : Date} (writes : WritesDay date first) :
    WritesDays (since date) (.since first)
  | between {firstText lastText : List Char} {first last : Date}
    (writesFirst : WritesDay firstText first) (writesLast : WritesDay lastText last) :
    WritesDays (between firstText lastText) (.between first last)

/-- What a form is read as. Of a reversed interval it is told how it was shown. -/
def meaning (shown : String) : DateForm → Except Skip Period
  | always => .ok .always
  | .until date => (DatedCode.readDate date).map .until
  | since date => (DatedCode.readDate date).map .since
  | between first last => do
    let first ← DatedCode.readDate first
    let last ← DatedCode.readDate last
    if last < first then .error (.reversedInterval shown) else .ok (.between first last)

end DateForm

/-- A code that can be told from what stands around it. -/
structure IsCode (code : List Char) : Prop where
  nonempty : code ≠ []
  isWord : ∀ c ∈ code, isSpace c = false
  noBracket : ']' ∉ code

/-- A code with a form behind it, in brackets. -/
inductive WritesForm (code : List Char) (form : DateForm) : List Char → Prop
  | intro {front behind : List Char} (rest : List Char) (blank : isBlank front = true)
    (spells : form.Spells behind) :
    WritesForm code form ('[' :: (front ++ (code ++ behind)) ++ ']' :: rest)

/-! ### Reading forms -/

theorem IsCode.trim_eq {front code : List Char} (isCode : IsCode code)
    (blank : isBlank front = true) (behind : List Char) :
    trim (front ++ (code ++ behind)) = code ++ trimEnd behind := by
  have start : trimStart (code ++ behind) = code ++ behind := by
    obtain ⟨c, rest, rfl⟩ := List.exists_cons_of_ne_nil isCode.nonempty
    exact trimStart_append_cons (isCode.isWord c List.mem_cons_self) [] (rest ++ behind)
  rw [trim, trimStart_of_blank blank, start]
  exact dropEndWhile_append isCode.nonempty isCode.isWord [] behind

namespace DatedCode

/-- An interval is told by its dash if none of the marks stands before it. -/
theorem readPeriod_interval {firstText : List Char}
    (unmarked : ∀ mark ∈ ['<', '>', '-'], mark ∉ firstText) (lastText : List Char) :
    readPeriod (firstText ++ '-' :: lastText) = (do
      let first ← readDate (trim firstText)
      let last ← readDate (trim lastText)
      if last < first then
        .error (.reversedInterval (String.ofList (firstText ++ '-' :: lastText)))
      else .ok (.between first last)) := by
  have starts {mark : Char} (isMark : mark ∈ ['<', '>', '-']) (differs : mark ≠ '-')
      (text : List Char) : firstText ++ '-' :: lastText ≠ mark :: text := by
    intro same
    cases firstText with
    | nil => exact differs (List.cons.inj same).1.symm
    | cons c rest =>
      obtain ⟨rfl, -⟩ := List.cons.inj same
      exact unmarked c isMark List.mem_cons_self
  have parts : splitAt? (· == '-') (firstText ++ '-' :: lastText) = some (firstText, lastText) :=
    splitAt?_beq_eq_some_iff.mpr ⟨rfl, unmarked '-' (by simp)⟩
  unfold readPeriod
  split
  next empty => simp at empty
  next isUntil => exact absurd isUntil (starts (by simp) (by decide) _)
  next isSince => exact absurd isSince (starts (by simp) (by decide) _)
  next =>
    rw [parts]
    rfl

/-- The bound of a one-sided period may have white space on both sides. -/
theorem exists_readBound_eq {mark : Char} (notSpace : isSpace mark = false)
    {apart front digits back : List Char}
    (blank : ∀ space ∈ [apart, front, back], isBlank space = true)
    (areDigits : ∀ c ∈ digits, c.isDigit) :
    ∃ text, trim (trimEnd (apart ++ mark :: (front ++ (digits ++ back)))) = mark :: text ∧
      readBound text = readDate digits := by
  obtain ⟨apartBlank, frontBlank, backBlank⟩ : _ ∧ _ ∧ _ := by simpa using blank
  refine ⟨trimEnd (front ++ (digits ++ back)), ?_, ?_⟩
  · rw [trim_trimEnd_append_cons notSpace, trimStart_eq_nil_iff.mpr apartBlank, List.nil_append]
  · obtain ⟨before, beforeBlank, shape⟩ := exists_trimEnd_around frontBlank
      (fun c member => isSpace_of_isDigit (areDigits c member)) backBlank
    have leading : leadingDigits (before ++ (digits ++ [])) = digits :=
      leadingDigits_around beforeBlank areDigits rfl
    rw [List.append_nil, ← shape] at leading
    exact congrArg readDate leading

/-- A text in the place of a date is a day, or it is refused as a bad date. -/
theorem readDate_cases (text : List Char) :
    (∃ day, WritesDay text day ∧ readDate text = .ok day.ordinal) ∨
      ∃ fault, readDate text = .error (.badDate fault) := by
  cases result : ordinalOfText (String.ofList text) with
  | ok ordinal =>
    have isRead : readDate text = .ok ordinal := by
      rw [readDate, result]
      rfl
    obtain ⟨day, writes, rfl⟩ := readDate_eq_ok_iff.mp isRead
    exact .inl ⟨day, writes, isRead⟩
  | error fault =>
    refine .inr ⟨fault, ?_⟩
    rw [readDate, result]
    rfl

end DatedCode

namespace DateForm

variable {form : DateForm} {behind : List Char}

theorem Spells.noBracket (digits : form.HasDigits) (spells : form.Spells behind) :
    ']' ∉ behind := by
  have inDigits : ∀ date ∈ form.dates, ']' ∉ date := fun date member bracket => by
    cases digits date member ']' bracket
  have inBlank {spaces : List (List Char)} (blank : ∀ space ∈ spaces, isBlank space = true) :
      ∀ space ∈ spaces, ']' ∉ space := fun space member =>
    not_mem_of_isBlank (by decide) (blank space member)
  cases spells with
  | always blank => exact not_mem_of_isBlank (by decide) blank
  | «until» _ blank =>
    have noneBlank := inBlank blank
    simp_all [dates]
  | since _ blank =>
    have noneBlank := inBlank blank
    simp_all [dates]
  | between _ blank =>
    have noneBlank := inBlank blank
    simp_all [dates]

/-- Behind a code the dates are set apart. -/
theorem Spells.isApart (spells : form.Spells behind) :
    ∀ c ∈ (trimEnd behind).head?, isSpace c = true := by
  have first {apart : List Char} (nonempty : apart ≠ []) (blank : isBlank apart = true)
      (rest : List Char) : ∀ c ∈ (apart ++ rest).head?, isSpace c = true := by
    obtain ⟨c, others, rfl⟩ := List.exists_cons_of_ne_nil nonempty
    simpa using List.all_eq_true.mp blank c List.mem_cons_self
  cases spells with
  | always blank =>
    rw [trimEnd_eq_nil_iff.mpr blank]
    simp
  | «until» nonempty blank =>
    rw [trimEnd_append_cons (by decide)]
    exact first nonempty (blank _ List.mem_cons_self) _
  | since nonempty blank =>
    rw [trimEnd_append_cons (by decide)]
    exact first nonempty (blank _ List.mem_cons_self) _
  | between nonempty blank =>
    rw [trimEnd_append_cons (by decide), List.append_assoc]
    exact first nonempty (blank _ List.mem_cons_self) _

/-- What stands behind the code is read as the form means. -/
theorem Spells.readPeriod (digits : form.HasDigits) (spells : form.Spells behind) :
    DatedCode.readPeriod (trim (trimEnd behind)) =
      form.meaning (String.ofList (trim (trimEnd behind))) := by
  have isWord {date : List Char} (member : date ∈ form.dates) : ∀ c ∈ date, isSpace c = false :=
    fun c inDate => isSpace_of_isDigit (digits date member c inDate)
  cases spells with
  | always blank =>
    rw [trimEnd_eq_nil_iff.mpr blank]
    rfl
  | @«until» apart front date back _ blank =>
    obtain ⟨text, shape, bound⟩ := DatedCode.exists_readBound_eq (by decide : isSpace '<' = false)
      blank (digits date (by simp [dates]))
    rw [shape, DatedCode.readPeriod, bound, meaning]
    cases DatedCode.readDate date <;> rfl
  | @since apart front date back _ blank =>
    obtain ⟨text, shape, bound⟩ := DatedCode.exists_readBound_eq (by decide : isSpace '>' = false)
      blank (digits date (by simp [dates]))
    rw [shape, DatedCode.readPeriod, bound, meaning]
    cases DatedCode.readDate date <;> rfl
  | @between apart first beforeDash behindDash last back nonempty blank =>
    obtain ⟨apartBlank, beforeBlank, behindBlank, backBlank⟩ : _ ∧ _ ∧ _ ∧ _ := by
      simpa using blank
    have firstDigits : ∀ c ∈ first, c.isDigit := digits first (by simp [dates])
    have firstWord : ∀ c ∈ first, isSpace c = false := isWord (by simp [dates])
    have lastWord : ∀ c ∈ last, isSpace c = false := isWord (by simp [dates])
    obtain ⟨firstSpace, firstBlank, start⟩ :=
      exists_trimStart_around apartBlank firstWord beforeBlank
    obtain ⟨lastSpace, lastBlank, rest⟩ := exists_trimEnd_around behindBlank lastWord backBlank
    have firstTrimmed : trim (first ++ firstSpace) = first :=
      trim_around (rfl : isBlank [] = true) firstWord firstBlank
    have lastTrimmed : trim (lastSpace ++ last) = last := by
      have trimmed := trim_around lastBlank lastWord (rfl : isBlank [] = true)
      rwa [List.append_nil] at trimmed
    have unmarked : ∀ mark ∈ ['<', '>', '-'], mark ∉ first ++ firstSpace := by
      intro mark isMark
      obtain ⟨noSpace, noDigit⟩ : isSpace mark = false ∧ ¬ mark.isDigit := by
        rcases List.mem_cons.mp isMark with rfl | isMark
        · decide
        · rcases List.mem_pair.mp isMark with rfl | rfl <;> decide
      rw [List.mem_append, not_or]
      exact ⟨fun inFirst => noDigit (firstDigits mark inFirst),
        not_mem_of_isBlank noSpace firstBlank⟩
    rw [trim_trimEnd_append_cons (by decide), start, rest, DatedCode.readPeriod_interval unmarked,
      firstTrimmed, lastTrimmed, meaning]

variable {period : WrittenPeriod} (shown : String)

theorem meaning_of_ordered (days : form.WritesDays period) (ordered : ¬ period.IsReversed) :
    form.meaning shown = .ok period.period := by
  cases days with
  | always => rfl
  | «until» writes => rw [meaning, DatedCode.readDate_eq_ok_iff.mpr ⟨_, writes, rfl⟩]; rfl
  | since writes => rw [meaning, DatedCode.readDate_eq_ok_iff.mpr ⟨_, writes, rfl⟩]; rfl
  | @between _ _ first last writesFirst writesLast =>
    have inOrder : ¬ last.ordinal < first.ordinal := by
      rw [Int.not_lt, Date.ordinal_le_iff writesFirst.2 writesLast.2]
      exact not_lt.mp ordered
    rw [meaning, DatedCode.readDate_eq_ok_iff.mpr ⟨_, writesFirst, rfl⟩,
      DatedCode.readDate_eq_ok_iff.mpr ⟨_, writesLast, rfl⟩]
    exact if_neg inOrder

theorem meaning_of_reversed (days : form.WritesDays period) (isReversed : period.IsReversed) :
    form.meaning shown = .error (.reversedInterval shown) := by
  cases days with
  | always | «until» _ | since _ => cases isReversed
  | @between _ _ first last writesFirst writesLast =>
    have reversed : last.ordinal < first.ordinal := by
      rw [← Int.not_le, Date.ordinal_le_iff writesFirst.2 writesLast.2]
      exact not_le.mpr isReversed
    rw [meaning, DatedCode.readDate_eq_ok_iff.mpr ⟨_, writesFirst, rfl⟩,
      DatedCode.readDate_eq_ok_iff.mpr ⟨_, writesLast, rfl⟩]
    exact if_pos reversed

/-- The first date that is no day is told of. -/
theorem meaning_of_no_day (noDay : ∃ date ∈ form.dates, ∀ day, ¬ WritesDay date day) :
    ∃ fault, form.meaning shown = .error (.badDate fault) := by
  obtain ⟨date, member, noDay⟩ := noDay
  have refused : ∃ fault, DatedCode.readDate date = .error (.badDate fault) :=
    (DatedCode.readDate_cases date).resolve_left fun ⟨day, writes, _⟩ => noDay day writes
  cases form with
  | always => cases member
  | «until» =>
    obtain rfl := List.mem_singleton.mp member
    obtain ⟨fault, isBad⟩ := refused
    exact ⟨fault, by rw [meaning, isBad]; rfl⟩
  | since =>
    obtain rfl := List.mem_singleton.mp member
    obtain ⟨fault, isBad⟩ := refused
    exact ⟨fault, by rw [meaning, isBad]; rfl⟩
  | between first last =>
    rcases DatedCode.readDate_cases first with ⟨firstDay, writes, isRead⟩ | ⟨fault, isBad⟩
    · rcases List.mem_pair.mp member with rfl | rfl
      · exact absurd writes (noDay firstDay)
      · obtain ⟨fault, isBad⟩ := refused
        exact ⟨fault, by rw [meaning, isRead, isBad]; rfl⟩
    · exact ⟨fault, by rw [meaning, isBad]; rfl⟩

end DateForm

/-- A code with a form behind it is read as the form means, and the code is exactly this code. -/
theorem WritesForm.read_eq {code : List Char} {form : DateForm} {text : List Char}
    (writes : WritesForm code form text) (isCode : IsCode code) (digits : form.HasDigits) :
    ∃ shown, DatedCode.read text =
      (form.meaning shown).map (DatedCode.mk · (String.ofList code)) := by
  cases writes with
  | @intro front behind rest blank spells =>
    have closed : ']' ∉ front ++ (code ++ behind) := by
      rw [List.mem_append, List.mem_append, not_or, not_or]
      exact ⟨not_mem_of_isBlank (by decide) blank, isCode.noBracket, spells.noBracket digits⟩
    refine ⟨String.ofList (trim (trimEnd behind)), ?_⟩
    rw [DatedCode.read_brackets closed (isCode.trim_eq blank behind) isCode.isWord spells.isApart,
      if_neg (by simpa using isCode.nonempty), spells.readPeriod digits]

/-! ### Compiled dictionaries -/

theorem WritesCode.exists_writesPeriod {text : List Char} {period : WrittenPeriod} {code : String}
    (writes : WritesCode text period code) : ∃ dates, WritesPeriod dates period := by
  cases writes with
  | intro _ _ _ _ _ writes => exact ⟨_, writes⟩

namespace ActorDictionary

/-- No interval of an actor ends before it starts. -/
def HasOrderedIntervals (dictionary : ActorDictionary) : Prop :=
  ∀ cluster ∈ dictionary.clusters, ∀ entry ∈ cluster.entries, ∀ first last,
    entry.period = .between first last → first ≤ last

theorem le_of_datedCode? {line : Line} {entry : DatedCode} {first last : Int}
    (isRead : datedCode? line.text = some entry) (isInterval : entry.period = .between first last) :
    first ≤ last := by
  obtain ⟨period, given, same⟩ := datedCode?_eq_some_iff.mp isRead
  obtain ⟨dates, writes⟩ := given.writes.exists_writesPeriod
  rw [isInterval] at same
  cases writes with
  | always | «until» _ | since _ => cases same
  | between _ writesFirst writesLast ordered =>
    obtain ⟨rfl, rfl⟩ := Period.between.inj same
    exact (Date.ordinal_le_iff writesFirst.2 writesLast.2).mpr ordered

theorem HasOrderedIntervals.compileInto {earlier : ActorDictionary}
    (ordered : earlier.HasOrderedIntervals) (keepRoots : Bool) (file : String) (script : Script) :
    (earlier.compileInto keepRoots file script).dictionary.HasOrderedIntervals := by
  intro cluster member entry isEntry first last isInterval
  have isListed := List.mem_map_of_mem (f := (·.entries)) (Array.mem_toList_iff.mpr member)
  rw [entries_compileInto, List.mem_append] at isListed
  rcases isListed with inEarlier | inGroup
  · obtain ⟨other, isOther, same⟩ := List.mem_map.mp inEarlier
    exact ordered other (Array.mem_toList_iff.mp isOther) entry (same ▸ isEntry) first last
      isInterval
  · obtain ⟨group, -, same⟩ := List.mem_map.mp inGroup
    rw [← same, ActorGroup.cluster, List.mem_append] at isEntry
    rcases isEntry with isOwn | isDated
    · rw [ActorGroup.ownCode, Option.mem_toList, Option.map_eq_some_iff] at isOwn
      obtain ⟨code, -, rfl⟩ := isOwn
      cases isInterval
    · obtain ⟨line, -, isRead⟩ := List.mem_filterMap.mp isDated
      exact le_of_datedCode? isRead isInterval

end ActorDictionary

namespace DatedCode

/-- A code with a form behind it is read back with the period of its dates. A reversed interval is a
malformed entry, and a date that is no day is an error of its own kind. So no interval in a compiled
dictionary ends before it starts. -/
theorem forms_read_back :
    (∀ code form text, IsCode code → form.HasDigits → WritesForm code form text →
      (∀ period, form.WritesDays period → ¬ period.IsReversed →
        read text = .ok ⟨period.period, String.ofList code⟩) ∧
      (∀ period, form.WritesDays period → period.IsReversed →
        ∃ skip, read text = .error skip ∧ skip.kind = .malformedEntry) ∧
      ((∃ date ∈ form.dates, ∀ day, ¬ WritesDay date day) →
        ∃ skip, read text = .error skip ∧ skip.kind = .dateError)) ∧
    ∀ (World : Type) (files : FileAccess (StateM World)) (world : World) (keepRoots : Bool)
      (names : List String) (whole : ActorDictionary),
      ((files.compileActors keepRoots names).run world).1.result = .ok whole →
        whole.HasOrderedIntervals := by
  constructor
  · intro code form text isCode digits writes
    obtain ⟨shown, isRead⟩ := writes.read_eq isCode digits
    refine ⟨fun period days ordered => ?_, fun period days isReversed => ?_, fun noDay => ?_⟩
    · rw [isRead, DateForm.meaning_of_ordered shown days ordered]
      rfl
    · rw [isRead, DateForm.meaning_of_reversed shown days isReversed]
      exact ⟨_, rfl, rfl⟩
    · obtain ⟨fault, refused⟩ := DateForm.meaning_of_no_day shown noDay
      rw [isRead, refused]
      exact ⟨_, rfl, rfl⟩
  · intro World files world keepRoots names whole isResult
    have atStart : ActorDictionary.empty.HasOrderedIntervals := by
      simp [ActorDictionary.HasOrderedIntervals, ActorDictionary.empty]
    exact FileAccess.holds_of_run_compileActorsFrom keepRoots
      (fun _ file script ordered => ordered.compileInto keepRoots file script) atStart isResult

/-- A code with the marks of periods in it, and dates around the end of February. -/
theorem leap_days_read_back :
    read "[ A-<B\t20000229 -000301]".toList =
        .ok ⟨.between (Date.ordinal ⟨2000, 2, 29⟩) (Date.ordinal ⟨2000, 3, 1⟩), "A-<B"⟩ ∧
      (∃ skip, read "[ A-<B\t000301 -20000229]".toList = .error skip ∧
        skip.kind = .malformedEntry) ∧
      ∃ skip, read "[A-<B > 20010229 ]".toList = .error skip ∧ skip.kind = .dateError := by
  have isCode : IsCode "A-<B".toList := ⟨by decide, by simp [isSpace], by decide⟩
  have leapDay : WritesDay "20000229".toList ⟨2000, 2, 29⟩ :=
    Date.ofChars_eq_ok_iff.mp (by decide +kernel)
  have nextDay : WritesDay "000301".toList ⟨2000, 3, 1⟩ :=
    Date.ofChars_eq_ok_iff.mp (by decide +kernel)
  have noDay : ∀ day, ¬ WritesDay "20010229".toList day := fun day writes => by
    have refused : (Date.ofChars "20010229".toList).toOption = none := by decide +kernel
    rw [Date.ofChars_eq_ok_iff.mpr writes] at refused
    cases refused
  have interval (first last : List Char) : WritesForm "A-<B".toList (.between first last)
      ('[' :: ([' '] ++ ("A-<B".toList ++
        (['\t'] ++ (first ++ [' ']) ++ '-' :: ([] ++ (last ++ []))))) ++ ']' :: []) :=
    .intro [] rfl (.between (List.cons_ne_nil _ _) (by decide))
  have bound : WritesForm "A-<B".toList (.since "20010229".toList)
      ('[' :: ([] ++ ("A-<B".toList ++
        ([' '] ++ '>' :: ([' '] ++ ("20010229".toList ++ [' ']))))) ++ ']' :: []) :=
    .intro [] rfl (.since (List.cons_ne_nil _ _) (by decide))
  refine ⟨?_, ?_, ?_⟩
  · exact (forms_read_back.1 _ _ _ isCode (by decide) (interval _ _)).1 _
      (.between leapDay nextDay) (by decide)
  · exact (forms_read_back.1 _ _ _ isCode (by decide) (interval _ _)).2.1 _
      (.between nextDay leapDay) (by decide)
  · exact (forms_read_back.1 _ _ _ isCode (by decide) bound).2.2
      ⟨_, List.mem_singleton_self _, noDay⟩

end DatedCode

end Codebook
