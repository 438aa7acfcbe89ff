/-
This file says which code an actor has on a day. Dates are compared as days of the calendar here, by
the year, the month and the day, and the lines behind an actor are taken as they are written, not as
they are stored. Main statement: the first line whose period holds of a day decides, then the first
code without a period, and nothing else does (`ActorDictionary.codes_follow_calendar`).
-/

import Codebook.Proofs.AcceptedLines
import Codebook.Proofs.WrittenPeriods

namespace Codebook

open Text

/-! ### Periods on the calendar -/

namespace WrittenPeriod

def isRestricted : WrittenPeriod → Bool
  | always => false
  | _ => true

/-- Whether a day lies in a period by the order of the calendar. Both bounds belong to it. -/
def Holds (day : Date) : WrittenPeriod → Prop
  | always => True
  | .until last => day.triple ≤ last.triple
  | since first => first.triple ≤ day.triple
  | between first last => first.triple ≤ day.triple ∧ day.triple ≤ last.triple

theorem isRestricted_period (period : WrittenPeriod) :
    period.period.isRestricted = period.isRestricted := by
  cases period <;> rfl

theorem eq_always_of_not_isRestricted {period : WrittenPeriod}
    (unbounded : period.isRestricted = false) : period = always := by
  cases period with
  | always => rfl
  | «until» | since | between => cases unbounded

end WrittenPeriod

/-- A written period holds the days whose ordinals lie between those of its dates. -/
theorem WritesPeriod.contains_iff {text : List Char} {period : WrittenPeriod}
    (writes : WritesPeriod text period) {day : Date} (valid : day.Valid) :
    period.period.contains day.ordinal = true ↔ period.Holds day := by
  cases writes with
  | always => exact iff_of_true rfl trivial
  | «until» writes =>
    simp only [WrittenPeriod.period, Period.contains, decide_eq_true_eq, WrittenPeriod.Holds,
      Date.ordinal_le_iff valid writes.2]
  | since writes =>
    simp only [WrittenPeriod.period, Period.contains, decide_eq_true_eq, WrittenPeriod.Holds,
      Date.ordinal_le_iff writes.2 valid]
  | between noDash writesFirst writesLast ordered =>
    simp only [WrittenPeriod.period, Period.contains, Bool.and_eq_true, decide_eq_true_eq,
      WrittenPeriod.Holds, Date.ordinal_le_iff writesFirst.2 valid,
      Date.ordinal_le_iff valid writesLast.2]

theorem WritesCode.contains_iff {text : List Char} {period : WrittenPeriod} {code : String}
    (writes : WritesCode text period code) {day : Date} (valid : day.Valid) :
    period.period.contains day.ordinal = true ↔ period.Holds day := by
  cases writes with
  | intro _ _ _ _ _ writes => exact writes.contains_iff valid

/-! ### Lines with codes -/

/-- A line gives a code for a period: it starts with a tab, and what else is on it writes them. -/
structure CodeLine (line : Line) (period : WrittenPeriod) (code : String) : Prop where
  isTab : line.text.head? = some '\t'
  writes : WritesCode (trim line.text) period code

theorem datedCode?_eq_some_iff {line : Line} {entry : DatedCode} :
    datedCode? line.text = some entry ↔
      ∃ period, CodeLine line period entry.code ∧ period.period = entry.period := by
  have read : (DatedCode.read (trim line.text)).toOption = some entry ↔
      DatedCode.read (trim line.text) = .ok entry := by
    cases DatedCode.read (trim line.text) <;> simp [Except.toOption]
  rw [datedCode?]
  by_cases isTab : line.text.head? = some '\t'
  · rw [if_pos isTab, read, DatedCode.read_eq_ok_iff]
    refine exists_congr fun period => and_congr_left fun _ => ?_
    exact ⟨fun writes => ⟨isTab, writes⟩, fun given => given.writes⟩
  · rw [if_neg isTab]
    refine iff_of_false (fun same => by cases same) ?_
    rintro ⟨period, given, -⟩
    exact isTab given.isTab

theorem isSome_datedCode?_iff {line : Line} :
    (datedCode? line.text).isSome ↔ ∃ period code, CodeLine line period code := by
  rw [Option.isSome_iff_exists]
  constructor
  · rintro ⟨entry, isRead⟩
    obtain ⟨period, given, -⟩ := datedCode?_eq_some_iff.mp isRead
    exact ⟨period, entry.code, given⟩
  · rintro ⟨period, code, given⟩
    exact ⟨⟨period.period, code⟩, datedCode?_eq_some_iff.mpr ⟨period, given, rfl⟩⟩

instance (line : Line) : Decidable (∃ period code, CodeLine line period code) :=
  decidable_of_iff _ isSome_datedCode?_iff

/-- A line restricts a code to a period that holds of a day. -/
def RestrictsTo (day : Date) (line : Line) (code : String) : Prop :=
  ∃ period, CodeLine line period code ∧ period.isRestricted = true ∧ period.Holds day

/-- The code on a line, if its entry is as wanted. -/
def codeIf? (wanted : DatedCode → Bool) (line : Line) : Option String :=
  ((datedCode? line.text).filter wanted).map (·.code)

theorem codeIf?_eq_some_iff {wanted : DatedCode → Bool} {line : Line} {code : String} :
    codeIf? wanted line = some code ↔
      ∃ period, CodeLine line period code ∧ wanted ⟨period.period, code⟩ = true := by
  simp only [codeIf?, Option.map_eq_some_iff, Option.filter_eq_some_iff, datedCode?_eq_some_iff]
  constructor
  · rintro ⟨⟨_, _⟩, ⟨⟨period, given, rfl⟩, isWanted⟩, rfl⟩
    exact ⟨period, given, isWanted⟩
  · rintro ⟨period, given, isWanted⟩
    exact ⟨⟨period.period, code⟩, ⟨⟨period, given, rfl⟩, isWanted⟩, rfl⟩

theorem codeIf?_restricted {day : Date} (valid : day.Valid) (line : Line) (code : String) :
    codeIf? (fun entry => entry.period.isRestricted && entry.period.contains day.ordinal) line =
        some code ↔ RestrictsTo day line code := by
  rw [codeIf?_eq_some_iff]
  refine exists_congr fun period => and_congr_right fun given => ?_
  rw [Bool.and_eq_true, WrittenPeriod.isRestricted_period, given.writes.contains_iff valid]

theorem codeIf?_unbounded (line : Line) (code : String) :
    codeIf? (fun entry => !entry.period.isRestricted) line = some code ↔
      CodeLine line .always code := by
  rw [codeIf?_eq_some_iff]
  constructor
  · rintro ⟨period, given, unbounded⟩
    rw [Bool.not_eq_true', WrittenPeriod.isRestricted_period] at unbounded
    obtain rfl := WrittenPeriod.eq_always_of_not_isRestricted unbounded
    exact given
  · intro given
    exact ⟨.always, given, rfl⟩

/-! ### The line that decides -/

/-- The first of some lines that gives a code at all gives this one. -/
def FirstGives (Gives : Line → String → Prop) (lines : List Line) (code : String) : Prop :=
  ∃ before line after, lines = before ++ line :: after ∧ Gives line code ∧
    ∀ other ∈ before, ∀ another, ¬ Gives other another

/-- None of some lines gives a code. -/
def NoneGives (Gives : Line → String → Prop) (lines : List Line) : Prop :=
  ∀ line ∈ lines, ∀ code, ¬ Gives line code

section Deciding

variable {Gives : Line → String → Prop} {give? : Line → Option String}
  (gives : ∀ line code, give? line = some code ↔ Gives line code)

include gives

theorem give?_eq_none_iff {line : Line} : give? line = none ↔ ∀ code, ¬ Gives line code := by
  simp only [← gives, Option.eq_none_iff_forall_ne_some]

theorem findSome?_eq_some_iff_firstGives (lines : List Line) (code : String) :
    lines.findSome? give? = some code ↔ FirstGives Gives lines code := by
  rw [List.findSome?_eq_some_iff]
  simp only [FirstGives, gives, give?_eq_none_iff gives]

theorem findSome?_eq_none_iff_noneGives (lines : List Line) :
    lines.findSome? give? = none ↔ NoneGives Gives lines := by
  simp only [List.findSome?_eq_none_iff, NoneGives, give?_eq_none_iff gives]

end Deciding

namespace ActorGroup

/-- What a group of lines says about a day. -/
inductive Answers (group : ActorGroup) (day : Date) : Option String → Prop
  | restricted {code : String} (first : FirstGives (RestrictsTo day) group.others code) :
    Answers group day (some code)
  | own {code : String} (noneHolds : NoneGives (RestrictsTo day) group.others)
    (isOwn : group.code? = some code) :
    Answers group day (some code)
  | unrestricted {code : String} (noneHolds : NoneGives (RestrictsTo day) group.others)
    (noOwn : group.code? = none)
    (first : FirstGives (CodeLine · .always) group.others code) :
    Answers group day (some code)
  | nothing (noneHolds : NoneGives (RestrictsTo day) group.others) (noOwn : group.code? = none)
    (noneUnrestricted : NoneGives (CodeLine · .always) group.others) :
    Answers group day none

theorem map_find?_filterMap (wanted : DatedCode → Bool) (lines : List Line) :
    ((lines.filterMap fun line => datedCode? line.text).find? wanted).map (·.code) =
      lines.findSome? (codeIf? wanted) := by
  induction lines with
  | nil => rfl
  | cons line rest inductionHypothesis =>
    rw [List.filterMap_cons, List.findSome?_cons, codeIf?]
    cases datedCode? line.text with
    | none => exact inductionHypothesis
    | some entry =>
      rw [List.find?_cons, Option.filter_some]
      cases wanted entry with
      | false => exact inductionHypothesis
      | true => rfl

/-- The entries of a cluster are looked through line by line. -/
theorem codeOn?_cluster (keepRoots : Bool) (group : ActorGroup) (ordinal : Int) :
    (group.cluster keepRoots).codeOn? ordinal =
      (group.others.findSome? (codeIf? fun entry =>
          entry.period.isRestricted && entry.period.contains ordinal)).or
        (group.code?.or
          (group.others.findSome? (codeIf? fun entry => !entry.period.isRestricted))) := by
  simp only [← map_find?_filterMap, Cluster.codeOn?, cluster, ownCode, List.find?_append,
    Option.map_or]
  cases group.code? <;> rfl

/-- A cluster has the code on a day that the lines of its group say. -/
theorem codeOn?_cluster_eq_iff (keepRoots : Bool) (group : ActorGroup) {day : Date}
    (valid : day.Valid) {result : Option String} :
    (group.cluster keepRoots).codeOn? day.ordinal = result ↔ group.Answers day result := by
  have holds := findSome?_eq_some_iff_firstGives (codeIf?_restricted valid) group.others
  have holdsNot := findSome?_eq_none_iff_noneGives (codeIf?_restricted valid) group.others
  have isDefault := findSome?_eq_some_iff_firstGives codeIf?_unbounded group.others
  have isNoDefault := findSome?_eq_none_iff_noneGives codeIf?_unbounded group.others
  rw [codeOn?_cluster]
  constructor
  · rintro rfl
    cases isHeld : group.others.findSome? (codeIf? fun entry =>
        entry.period.isRestricted && entry.period.contains day.ordinal) with
    | some code => exact .restricted ((holds code).mp isHeld)
    | none =>
      have noneHolds := holdsNot.mp isHeld
      cases isOwn : group.code? with
      | some code => exact .own noneHolds isOwn
      | none =>
        cases isFree : group.others.findSome? (codeIf? fun entry => !entry.period.isRestricted) with
        | some code => exact .unrestricted noneHolds isOwn ((isDefault code).mp isFree)
        | none => exact .nothing noneHolds isOwn (isNoDefault.mp isFree)
  · intro answers
    cases answers with
    | restricted first => rw [(holds _).mpr first, Option.some_or]
    | own noneHolds isOwn =>
      rw [holdsNot.mpr noneHolds, isOwn, Option.none_or, Option.some_or]
    | unrestricted noneHolds noOwn first =>
      rw [holdsNot.mpr noneHolds, noOwn, (isDefault _).mpr first, Option.none_or, Option.none_or]
    | nothing noneHolds noOwn noneUnrestricted =>
      rw [holdsNot.mpr noneHolds, noOwn, isNoDefault.mpr noneUnrestricted, Option.none_or,
        Option.none_or]

end ActorGroup

/-! ### Files -/

/-- Of the lines that start with a tab those are accepted that give a code, if a cluster is open. -/
theorem readsAccepted_codeLine :
    ReadsAccepted (Option.guard fun line : Line => line.text.head? = some '\t') (fun _ => none)
      (Option.guard fun line => ∃ period code, CodeLine line period code) where
  ofPrimary {line phrase code?} isPrimary := by
    have noTab : line.text.head? ≠ some '\t' := by
      intro isTab
      simp [primary?, isTab] at isPrimary
    simp [Option.guard, noTab]
  ofOther {line} notPrimary isOpen := by
    by_cases isTab : line.text.head? = some '\t'
    · have isRead : (ActorItem.read isOpen line.text).toBool =
          (isOpen && (datedCode? line.text).isSome) := by
        rw [ActorItem.read, if_pos isTab, ActorItem.readCode, datedCode?, if_pos isTab]
        cases isOpen <;> cases DatedCode.read (trim line.text) <;> rfl
      simp only [isRead, Option.guard, isTab, ← isSome_datedCode?_iff]
      cases isOpen <;> simp
    · have noCode : ¬ ∃ period code, CodeLine line period code := by
        rintro ⟨period, code, given⟩
        exact isTab given.isTab
      simp only [Option.guard, isTab, noCode, decide_false, Bool.false_eq_true, if_false, ite_self]

/-- Completing a cluster leaves its entries as they are. -/
theorem ActorState.entries_close (keepRoots : Bool) (state : ActorState) :
    (state.close keepRoots).dictionary.clusters.toList.map (·.entries) =
      state.dictionary.clusters.toList.map (·.entries) := by
  unfold close
  cases state.current with
  | none => rfl
  | some current =>
    ext index : 1
    simp only [List.getElem?_map, Array.toList_modify, List.getElem?_modify]
    cases state.dictionary.clusters.toList[index]? with
    | none => rfl
    | some cluster =>
      by_cases isOpen : current.index = index
      · cases keepRoots <;> simp [isOpen]
      · simp [isOpen]

namespace ActorDictionary

/-- A file adds the entries of its groups, whether or not it fails. -/
theorem entries_compileInto (keepRoots : Bool) (earlier : ActorDictionary) (file : String)
    (script : Script) :
    (earlier.compileInto keepRoots file script).dictionary.clusters.toList.map (·.entries) =
      earlier.clusters.toList.map (·.entries) ++
        script.groups.map fun group => (group.cluster keepRoots).entries := by
  have shows := ActorState.shows_of_closed earlier
  unfold compileInto
  dsimp only
  split
  · rw [handleLines_fst, shows.foldl_handle, Script.ofLines_untilStop]
    simp [ActorState.completed]
  · rw [handleLines_fst, ← ActorState.entries_close keepRoots, shows.foldl_handle,
      Script.ofLines_untilStop]
    simp [ActorState.completed]

/-- A cluster behind earlier ones has the entries of its group. -/
theorem exists_cluster_compileInto (keepRoots : Bool) (earlier : ActorDictionary) (file : String)
    (script : Script) {index : Nat} {group : ActorGroup}
    (here : script.groups[index]? = some group) :
    ∃ cluster,
      (earlier.compileInto keepRoots file script).dictionary.clusters[earlier.clusters.size +
        index]? = some cluster ∧ cluster.entries = (group.cluster keepRoots).entries := by
  have entries := congrArg (·[earlier.clusters.size + index]?)
    (entries_compileInto keepRoots earlier file script)
  simpa [List.getElem?_append_right, here, Option.map_eq_some_iff] using entries

/-- The code an actor has on a day is the one its lines say. The lines with a tab that are accepted
are those that are written as dated codes, and the first of a cluster whose period holds of the day
by the order of the calendar decides. If there is none, the code on the primary line applies, or
else the first code without a period, and otherwise there is no code. -/
theorem codes_follow_calendar (keepRoots : Bool) (earlier : ActorDictionary) (file : String)
    (script : Script) :
    (script.accepted (Option.guard fun line => line.text.head? = some '	') keepRoots earlier =
      script.groups.flatMap fun group =>
        group.others.filter fun line => ∃ period code, CodeLine line period code) ∧
    (earlier.compileInto keepRoots file script).dictionary.clusters.size =
      earlier.clusters.size + script.groups.length ∧
    ∀ index group, script.groups[index]? = some group → ∃ cluster,
      (earlier.compileInto keepRoots file script).dictionary.clusters[earlier.clusters.size +
        index]? = some cluster ∧
      ∀ text ordinal, ordinalOfText text = .ok ordinal → ∃ day, WritesDay text.toList day ∧
        ∀ result, cluster.codeOn? ordinal = result ↔ group.Answers day result := by
  refine ⟨?_, ?_, ?_⟩
  · rw [script.accepted_eq_groups readsAccepted_codeLine]
    simp only [Option.toList_none, List.nil_append, List.filterMap_eq_filter]
  · have entries := congrArg List.length (entries_compileInto keepRoots earlier file script)
    simpa using entries
  · intro index group here
    obtain ⟨cluster, isThere, entries⟩ :=
      exists_cluster_compileInto keepRoots earlier file script here
    refine ⟨cluster, isThere, fun text ordinal isRead => ?_⟩
    obtain ⟨day, writes, valid, rfl⟩ := ordinalOfText_eq_ok_iff.mp isRead
    have sameAnswer : cluster.codeOn? day.ordinal =
        (group.cluster keepRoots).codeOn? day.ordinal := by
      rw [Cluster.codeOn?, Cluster.codeOn?, entries]
    refine ⟨day, ⟨writes, valid⟩, fun result => ?_⟩
    rw [sameAnswer, group.codeOn?_cluster_eq_iff keepRoots valid]

/-- Periods that overlap, with dates of both lengths. The third line ends before it starts. -/
def overlappingScript : Script where
  lines := List.mapIdx (fun index text => ⟨index + 1, text.toList⟩)
    ["KARZAI [AFGMIL]", "	[AFGGOV 791227-19861124]", "	[AFGOPP 19960101-790101]",
      "	[AFGREB <861124]", "	[AFGELI 310101 - 301231]"]
  failedAfter := none

/-- On the last day of the first period that period decides, and on the next one the long period
that ends in 2030. -/
theorem codes_overlappingScript :
    ∃ group, overlappingScript.groups[0]? = some group ∧
      (∃ day ordinal, ordinalOfText "19861124" = .ok ordinal ∧
        WritesDay "19861124".toList day ∧ group.Answers day (some "AFGGOV")) ∧
      ∃ day ordinal, ordinalOfText "861125" = .ok ordinal ∧
        WritesDay "861125".toList day ∧ group.Answers day (some "AFGELI") := by
  have here : overlappingScript.groups[0]? =
      some ⟨"KARZAI".toList, some "AFGMIL", overlappingScript.lines.tail⟩ := by
    decide +kernel
  obtain ⟨-, -, codes⟩ := codes_follow_calendar true empty "actors" overlappingScript
  obtain ⟨cluster, isThere, answers⟩ := codes 0 _ here
  have compiled :
      (empty.compileInto true "actors" overlappingScript).dictionary.clusters[0]? =
        some ⟨[⟨.always, "AFGMIL"⟩, ⟨.between 138422 140946, "AFGGOV"⟩, ⟨.until 140946, "AFGREB"⟩,
          ⟨.between 120530 157054, "AFGELI"⟩], some "KARZAI"⟩ := by
    decide +kernel
  obtain rfl := Option.some.inj (isThere.symm.trans compiled)
  have lastDay : ordinalOfText "19861124" = .ok 140946 := by decide +kernel
  have nextDay : ordinalOfText "861125" = .ok 140947 := by decide +kernel
  obtain ⟨last, writesLast, answersLast⟩ := answers _ _ lastDay
  obtain ⟨next, writesNext, answersNext⟩ := answers _ _ nextDay
  refine ⟨_, here, ⟨last, _, lastDay, writesLast, ?_⟩, next, _, nextDay, writesNext, ?_⟩
  · exact (answersLast _).mp (by decide)
  · exact (answersNext _).mp (by decide)

end ActorDictionary

end Codebook
