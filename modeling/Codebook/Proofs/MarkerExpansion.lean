/-
This file says which definition of a marker counts. Definitions are known by the shape of their
lines, and the last one above a line is the one that the markers hold when the line is met. Main
statement: a phrase with a marker is stored once for each item of the last definition above it, and
it is skipped if there is none (`AgentDictionary.lastDefinition_expands`).
-/

import Codebook.Proofs.LeftoverMarks

namespace Codebook

open Text

/-! ### Definitions -/

/-- A line defines a marker: between two marks stands its name, and behind a `=` its items. -/
inductive DefinesMarker (line : Line) : String → List String → Prop
  | intro {name between items : List Char}
    (shape : trim line.text = '!' :: (name ++ '!' :: (between ++ '=' :: items)))
    (unmarked : '!' ∉ name) (isFirst : '=' ∉ between) :
    DefinesMarker line (String.ofList (upperChars (trim name))) (AgentItem.itemsOf items)

/-- The last of some lines that defines a marker gives it these items. -/
def LastDefinition (lines : List Line) (name : String) (items : List String) : Prop :=
  ∃ earlier line later, lines = earlier ++ line :: later ∧ DefinesMarker line name items ∧
    ∀ other ∈ later, ∀ others, ¬ DefinesMarker other name others

theorem AgentItem.readMarker_eq_ok_iff {text : List Char} {item : AgentItem} :
    readMarker text = .ok item ↔ ∃ name between items,
      text = name ++ '!' :: (between ++ '=' :: items) ∧ '!' ∉ name ∧ '=' ∉ between ∧
        item = .marker (String.ofList (upperChars (trim name))) (itemsOf items) := by
  unfold readMarker
  constructor
  · intro isRead
    split at isRead
    next => cases isRead
    next name rest nameSplit =>
      split at isRead
      next => cases isRead
      next between items itemsSplit =>
        obtain ⟨rfl, unmarked⟩ := splitAt?_beq_eq_some_iff.mp nameSplit
        obtain ⟨rfl, isFirst⟩ := splitAt?_beq_eq_some_iff.mp itemsSplit
        exact ⟨name, between, items, rfl, unmarked, isFirst, (Except.ok.inj isRead).symm⟩
  · rintro ⟨name, between, items, rfl, unmarked, isFirst, rfl⟩
    rw [splitAt?_beq_eq_some_iff.mpr ⟨rfl, unmarked⟩]
    dsimp only
    rw [splitAt?_beq_eq_some_iff.mpr ⟨rfl, isFirst⟩]

/-- A line is read as a marker exactly if it defines it. -/
theorem read_eq_marker_iff {line : Line} {name : String} {items : List String} :
    AgentItem.read (trim line.text) = .ok (.marker name items) ↔ DefinesMarker line name items := by
  constructor
  · intro isRead
    by_cases isDefinition : AgentItem.IsDefinition (trim line.text)
    · obtain ⟨rest, text, hasSign⟩ := isDefinition
      rw [text, AgentItem.read, if_pos (by simpa using hasSign)] at isRead
      obtain ⟨_, between, _, rfl, unmarked, isFirst, same⟩ :=
        AgentItem.readMarker_eq_ok_iff.mp isRead
      obtain ⟨rfl, rfl⟩ := AgentItem.marker.inj same
      exact .intro text unmarked isFirst
    · rw [AgentItem.read_of_not_isDefinition isDefinition] at isRead
      obtain ⟨_, _, _, _, -, -, -, -, isRole⟩ := AgentItem.readRole_eq_ok_iff.mp isRead
      cases isRole
  · rintro ⟨shape, unmarked, isFirst⟩
    rw [shape, AgentItem.read, if_pos (by simp)]
    exact AgentItem.readMarker_eq_ok_iff.mpr ⟨_, _, _, rfl, unmarked, isFirst, rfl⟩

theorem definedItems?_eq_some_iff {name : String} {line : Line} {items : List String} :
    definedItems? name line = some items ↔ DefinesMarker line name items := by
  rw [← read_eq_marker_iff, definedItems?]
  constructor
  · intro defined
    split at defined
    next other others isRead =>
      split at defined
      next same => rw [isRead, same, Option.some.inj defined]
      next => cases defined
    next => cases defined
  · intro isRead
    rw [isRead]
    exact if_pos rfl

theorem definedItems?_eq_none_iff {name : String} {line : Line} :
    definedItems? name line = none ↔ ∀ items, ¬ DefinesMarker line name items := by
  rw [Option.eq_none_iff_forall_ne_some]
  exact forall_congr' fun items => not_congr definedItems?_eq_some_iff

/-! ### The last definition -/

/-- The markers hold what the last definition says. -/
theorem latestItems?_eq_some_iff {lines : List Line} {name : String} {items : List String} :
    latestItems? lines name = some items ↔ LastDefinition lines name items := by
  rw [latestItems?, List.findSome?_eq_some_iff]
  constructor
  · rintro ⟨later, line, earlier, reversed, defined, undefined⟩
    refine ⟨earlier.reverse, line, later.reverse, ?_, definedItems?_eq_some_iff.mp defined, ?_⟩
    · rw [← List.reverse_reverse lines, reversed]
      simp
    · intro other isLater
      exact definedItems?_eq_none_iff.mp (undefined other (List.mem_reverse.mp isLater))
  · rintro ⟨earlier, line, later, rfl, defines, undefined⟩
    refine ⟨later.reverse, line, earlier.reverse, by simp,
      definedItems?_eq_some_iff.mpr defines, ?_⟩
    intro other isLater
    exact definedItems?_eq_none_iff.mpr (undefined other (List.mem_reverse.mp isLater))

theorem latestItems?_eq_none_iff {lines : List Line} {name : String} :
    latestItems? lines name = none ↔ ∀ line ∈ lines, ∀ items, ¬ DefinesMarker line name items := by
  rw [latestItems?, List.findSome?_eq_none_iff]
  simp only [List.mem_reverse, definedItems?_eq_none_iff]

/-! ### Uses -/

/-- What is left of a text before its braces, if they are closed. -/
inductive BeforeBraces : List Char → List Char → Prop
  | unbraced {text : List Char} (unbraced : '\x7b' ∉ text) : BeforeBraces text text
  | braced {front plural : List Char} (back : List Char) (isFirst : '\x7b' ∉ front)
    (closed : '\x7d' ∉ plural) :
    BeforeBraces (front ++ '\x7b' :: (plural ++ '\x7d' :: back)) (trim front)

theorem BeforeBraces.splitPlural {body text : List Char} (before : BeforeBraces body text) :
    ∃ plural?, AgentState.splitPlural body = .ok (text, plural?) := by
  unfold AgentState.splitPlural
  cases before with
  | unbraced unbraced =>
    rw [splitAt?_beq_eq_none_iff.mpr unbraced]
    exact ⟨none, rfl⟩
  | @braced front plural back isFirst closed =>
    rw [splitAt?_beq_eq_some_iff.mpr ⟨rfl, isFirst⟩]
    dsimp only
    rw [splitAt?_beq_eq_some_iff.mpr ⟨rfl, closed⟩]
    exact ⟨_, rfl⟩

/-- A line that is no definition gives a phrase with a marker and a code. The phrase is what stands
before the braces, in upper case and without the underscores at its end. -/
structure UsesMarker (line : Line) (head name tail : List Char) (code : AgentCode) : Prop where
  notDefinition : ¬ AgentItem.IsDefinition (trim line.text)
  hasCode : ∃ raw, (splitCode (trim line.text)).2 = some raw ∧ AgentCode.read raw.toList = .ok code
  hasMarker : ∃ text, BeforeBraces line.beforeCode text ∧
    HasMarker (upperChars (dropEndWhile (· == '_') text)) head name tail

theorem UsesMarker.read {line : Line} {head name tail : List Char} {code : AgentCode}
    (uses : UsesMarker line head name tail code) :
    ∃ phrase plural?, AgentItem.read (trim line.text) = .ok (.role phrase plural? code) ∧
      HasMarker phrase head name tail := by
  obtain ⟨raw, hasCode, isRead⟩ := uses.hasCode
  obtain ⟨text, before, marker⟩ := uses.hasMarker
  obtain ⟨plural?, split⟩ := before.splitPlural
  have nonempty : upperChars (dropEndWhile (· == '_') text) ≠ [] := by
    rw [marker.shape]
    simp
  refine ⟨_, plural?, ?_, marker⟩
  rw [AgentItem.read_of_not_isDefinition uses.notDefinition]
  exact AgentItem.readRole_eq_ok_iff.mpr ⟨raw, code, text, plural?, hasCode, isRead, split,
    nonempty, rfl⟩

namespace AgentDictionary

/-- The last definition above a line says what its marker stands for: one entry for each item, in
order, and no plurals. Without a definition above it the line is skipped. What stands below changes
neither. -/
theorem lastDefinition_expands (file : String) (above : List Line) {line : Line}
    {head name tail : List Char} {code : AgentCode} (uses : UsesMarker line head name tail code) :
    (∀ items, LastDefinition above (String.ofList name) items →
      HasEffect file above line
        (entriesOf (items.map fun item => head ++ item.toList ++ tail) code) none) ∧
    ((∀ other ∈ above, ∀ items, ¬ DefinesMarker other (String.ofList name) items) →
      HasEffect file above line [] (some (.undefinedMarker (String.ofList name))) ∧
        (Skip.undefinedMarker (String.ofList name)).kind = .undefinedReference) := by
  obtain ⟨phrase, plural?, isRole, marker⟩ := uses.read
  have spelled := marker.spellingsOf_eq (latestItems? above) plural?
  have effect := hasEffect file above line
  unfold addedOn skipOn? at effect
  rw [isRole] at effect
  dsimp only at effect
  rw [spelled] at effect
  constructor
  · intro items isLast
    rw [latestItems?_eq_some_iff.mpr isLast] at effect
    exact effect
  · intro undefined
    rw [latestItems?_eq_none_iff.mpr undefined] at effect
    exact ⟨effect, rfl⟩

/-- A marker that is defined twice, and an unfinished definition. -/
def personLines : List Line :=
  List.mapIdx (fun index text => ⟨index + 1, text.toList⟩)
    ["!person! = man, woman", "! Person ! = Men,, wo-men ,", "!PERSON! MAN"]

/-- The plural in braces does not count. -/
def congressLine : Line := ⟨4, "Congress!person! of_ {Congresses} [LEG~]".toList⟩

/-- The second definition counts. The marker of a line above all definitions is undefined. -/
theorem congress_expands :
    UsesMarker congressLine "CONGRESS".toList "PERSON".toList " OF".toList ⟨"LEG", .before⟩ ∧
      LastDefinition personLines "PERSON" ["MEN", "WO-MEN"] ∧
      HasEffect "agents" personLines congressLine
        (["CONGRESSMEN OF", "CONGRESSWO-MEN OF"].map fun text =>
          ((Phrase.ofChars text.toList).rooted, ⟨"LEG", .before⟩)) none ∧
      HasEffect "agents" [] congressLine [] (some (.undefinedMarker "PERSON")) := by
  have notDefinition : ¬ AgentItem.IsDefinition (trim congressLine.text) := by
    rintro ⟨rest, text, -⟩
    have first : (trim congressLine.text).head? = some 'C' := by decide +kernel
    rw [text] at first
    cases first
  have hasCode : (splitCode (trim congressLine.text)).2 = some "LEG~" ∧
      AgentCode.read "LEG~".toList = .ok ⟨"LEG", .before⟩ := by decide +kernel
  have braces : congressLine.beforeCode =
      "Congress!person! of_ ".toList ++ '\x7b' :: ("Congresses".toList ++ '\x7d' :: []) := by
    decide +kernel
  let text := trim "Congress!person! of_ ".toList
  have before : BeforeBraces congressLine.beforeCode text :=
    braces ▸ .braced [] (by decide) (by decide)
  have marker : HasMarker (upperChars (dropEndWhile (· == '_') text))
      "CONGRESS".toList "PERSON".toList " OF".toList :=
    ⟨by decide +kernel, by decide, by decide⟩
  have uses : UsesMarker congressLine "CONGRESS".toList "PERSON".toList " OF".toList
      ⟨"LEG", .before⟩ := ⟨notDefinition, ⟨_, hasCode⟩, ⟨_, before, marker⟩⟩
  have isLast : LastDefinition personLines "PERSON" ["MEN", "WO-MEN"] :=
    latestItems?_eq_some_iff.mp (by decide +kernel)
  have entries : entriesOf (["MEN", "WO-MEN"].map fun item =>
      "CONGRESS".toList ++ item.toList ++ " OF".toList) ⟨"LEG", .before⟩ =
        ["CONGRESSMEN OF", "CONGRESSWO-MEN OF"].map fun text =>
          ((Phrase.ofChars text.toList).rooted, ⟨"LEG", .before⟩) := by decide +kernel
  refine ⟨uses, isLast, ?_, ?_⟩
  · rw [← entries]
    exact (lastDefinition_expands "agents" personLines uses).1 _ isLast
  · exact ((lastDefinition_expands "agents" [] uses).2 (by simp)).1

end AgentDictionary

end Codebook
