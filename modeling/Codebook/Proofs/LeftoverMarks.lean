/-
This file says when the mark of markers is left over in an agent dictionary. Of a phrase only the
first marker is replaced, and neither what replaces it, nor what follows it, nor a plural in braces
is looked at again. Main statement: a mark is stored exactly if a line leaves one over in one of
these places, and a phrase whose first marker cannot be replaced is skipped
(`AgentDictionary.marks_left_over`).
-/

import Codebook.Proofs.AgentLines
import Codebook.Proofs.InflectedWords
import Codebook.Proofs.PhraseWords
import Codebook.Proofs.TrieNodes

namespace Codebook

open Text

/-! ### The first marker of a phrase -/

/-- A phrase with a marker in it. Nothing before the marker or in its name is a mark. -/
structure HasMarker (phrase head name tail : List Char) : Prop where
  shape : phrase = head ++ '!' :: name ++ '!' :: tail
  head_unmarked : '!' ∉ head
  name_unmarked : '!' ∉ name

/-- The first marker of a phrase cannot be replaced, and why. -/
inductive CannotExpand (items? : String → Option (List String)) (phrase : List Char) : Skip → Prop
  | unclosed (single : phrase.count '!' = 1) :
    CannotExpand items? phrase (.unclosedMarker (String.ofList phrase))
  | undefined {head name tail : List Char} (marker : HasMarker phrase head name tail)
    (undefined : items? (String.ofList name) = none) :
    CannotExpand items? phrase (.undefinedMarker (String.ofList name))

/-- Something is left of the marks of a role in one of its spellings: a plural in braces has a mark,
or an item that replaces the first marker has one, or what follows that marker. -/
inductive LeavesMark (items? : String → Option (List String)) (phrase : List Char)
    (plural? : Option (List Char)) : Prop
  | plural {plural : List Char} (unmarked : '!' ∉ phrase) (isPlural : plural? = some plural)
    (inPlural : '!' ∈ plural)
  | expansion {head name tail : List Char} {items : List String} {item : String}
    (marker : HasMarker phrase head name tail) (defined : items? (String.ofList name) = some items)
    (isItem : item ∈ items) (left : '!' ∈ item.toList ∨ '!' ∈ tail)

/-- A phrase has no mark, or one, or a marker. -/
theorem marks_trichotomy (phrase : List Char) :
    '!' ∉ phrase ∨ phrase.count '!' = 1 ∨ ∃ head name tail, HasMarker phrase head name tail := by
  cases first : splitAt? (· == '!') phrase with
  | none => exact .inl (splitAt?_beq_eq_none_iff.mp first)
  | some parts =>
    obtain ⟨rfl, head_unmarked⟩ := splitAt?_beq_eq_some_iff.mp first
    right
    cases second : splitAt? (· == '!') parts.2 with
    | none =>
      left
      have rest_unmarked : '!' ∉ parts.2 := splitAt?_beq_eq_none_iff.mp second
      simp [List.count_eq_zero_of_not_mem head_unmarked,
        List.count_eq_zero_of_not_mem rest_unmarked]
    | some more =>
      obtain ⟨shape, name_unmarked⟩ := splitAt?_beq_eq_some_iff.mp second
      exact .inr ⟨parts.1, more.1, more.2, by rw [shape]; simp, head_unmarked, name_unmarked⟩

section Spelling

variable (items? : String → Option (List String)) {phrase : List Char}
  (plural? : Option (List Char))

/-- A phrase with a marker stands for what the items of the marker make of it. -/
theorem HasMarker.spellingsOf_eq {head name tail : List Char}
    (marker : HasMarker phrase head name tail) :
    spellingsOf items? phrase plural? =
      (items? (String.ofList name)).elim (.error (.undefinedMarker (String.ofList name)))
        fun items => .ok (items.map fun item => head ++ item.toList ++ tail) := by
  have first : splitAt? (· == '!') phrase = some (head, name ++ '!' :: tail) := by
    refine splitAt?_beq_eq_some_iff.mpr ⟨?_, marker.head_unmarked⟩
    rw [marker.shape, List.append_assoc, List.cons_append]
  have second : splitAt? (· == '!') (name ++ '!' :: tail) = some (name, tail) :=
    splitAt?_beq_eq_some_iff.mpr ⟨rfl, marker.name_unmarked⟩
  simp only [spellingsOf, first, second]
  cases items? (String.ofList name) <;> rfl

theorem spellingsOf_of_single (single : phrase.count '!' = 1) :
    spellingsOf items? phrase plural? = .error (.unclosedMarker (String.ofList phrase)) := by
  cases first : splitAt? (· == '!') phrase with
  | none =>
    have isThere : '!' ∈ phrase := List.count_pos_iff.mp (by omega)
    exact absurd isThere (splitAt?_beq_eq_none_iff.mp first)
  | some parts =>
    obtain ⟨head, rest⟩ := parts
    obtain ⟨shape, head_unmarked⟩ := splitAt?_beq_eq_some_iff.mp first
    have rest_unmarked : '!' ∉ rest := by
      rw [shape, List.count_append, List.count_cons_self] at single
      exact List.count_eq_zero.mp (by omega)
    have second : splitAt? (· == '!') rest = none := splitAt?_beq_eq_none_iff.mpr rest_unmarked
    simp only [spellingsOf, first, second]

variable {items? plural?}

/-- A phrase cannot be spelled exactly if its first marker cannot be replaced. -/
theorem spellingsOf_eq_error_iff {skip : Skip} :
    spellingsOf items? phrase plural? = .error skip ↔ CannotExpand items? phrase skip := by
  constructor
  · intro refused
    rcases marks_trichotomy phrase with unmarked | single | ⟨head, name, tail, marker⟩
    · rw [spellingsOf_of_unmarked items? unmarked] at refused
      cases refused
    · rw [spellingsOf_of_single items? plural? single] at refused
      obtain rfl := Except.error.inj refused
      exact .unclosed single
    · rw [marker.spellingsOf_eq] at refused
      cases defined : items? (String.ofList name) with
      | none =>
        rw [defined] at refused
        obtain rfl := Except.error.inj refused
        exact .undefined marker defined
      | some items =>
        rw [defined] at refused
        cases refused
  · intro cannot
    cases cannot with
    | unclosed single => exact spellingsOf_of_single items? plural? single
    | undefined marker undefined =>
      rw [marker.spellingsOf_eq, undefined]
      rfl

theorem not_mem_agentPlural (unmarked : '!' ∉ phrase) : '!' ∉ Inflection.agentPlural phrase := by
  have differ : ∀ c ∈ Inflection.agentPlural phrase, c ≠ '!' := by
    refine Inflection.forall_mem_agentPlural
      (fun c member => ne_of_mem_of_not_mem member unmarked) ?_
    rintro _ isCapital rfl
    cases isCapital
  exact fun member => differ '!' member rfl

/-- Of a phrase without marks only a plural in braces can have one. -/
theorem exists_marked_plural_iff (unmarked : '!' ∉ phrase) :
    (∃ spelling ∈ AgentState.spellings phrase plural?, '!' ∈ spelling) ↔
      ∃ plural, plural? = some plural ∧ '!' ∈ plural := by
  have inUpper (text : List Char) : '!' ∈ upperChars text ↔ '!' ∈ text :=
    mem_upperChars_iff (by decide) (by decide)
  unfold AgentState.spellings
  split
  next => simp [unmarked, not_mem_agentPlural unmarked]
  next => simp [unmarked]
  next => simp [unmarked, inUpper]

/-- Of what replaces a phrase with a marker the items and the rest can have marks. -/
theorem HasMarker.exists_marked_iff {head name tail : List Char}
    (marker : HasMarker phrase head name tail) (items : List String) :
    (∃ spelling ∈ items.map fun item => head ++ item.toList ++ tail, '!' ∈ spelling) ↔
      ∃ item ∈ items, '!' ∈ item.toList ∨ '!' ∈ tail := by
  simp [marker.head_unmarked]

/-- A spelling has a mark exactly if the phrase leaves one. -/
theorem exists_marked_spelling_iff :
    (∃ spellings, spellingsOf items? phrase plural? = .ok spellings ∧
      ∃ spelling ∈ spellings, '!' ∈ spelling) ↔ LeavesMark items? phrase plural? := by
  constructor
  · rintro ⟨spellings, spelled, marked⟩
    rcases marks_trichotomy phrase with unmarked | single | ⟨head, name, tail, marker⟩
    · rw [spellingsOf_of_unmarked items? unmarked] at spelled
      obtain rfl := Except.ok.inj spelled
      obtain ⟨plural, isPlural, inPlural⟩ := (exists_marked_plural_iff unmarked).mp marked
      exact .plural unmarked isPlural inPlural
    · rw [spellingsOf_of_single items? plural? single] at spelled
      cases spelled
    · rw [marker.spellingsOf_eq] at spelled
      cases defined : items? (String.ofList name) with
      | none =>
        rw [defined] at spelled
        cases spelled
      | some items =>
        rw [defined] at spelled
        obtain rfl := Except.ok.inj spelled
        obtain ⟨item, isItem, left⟩ := (marker.exists_marked_iff items).mp marked
        exact .expansion marker defined isItem left
  · intro leaves
    cases leaves with
    | plural unmarked isPlural inPlural =>
      exact ⟨_, spellingsOf_of_unmarked items? unmarked plural?,
        (exists_marked_plural_iff unmarked).mpr ⟨_, isPlural, inPlural⟩⟩
    | @expansion head name tail items item marker defined isItem left =>
      refine ⟨_, ?_, (marker.exists_marked_iff items).mpr ⟨item, isItem, left⟩⟩
      rw [marker.spellingsOf_eq, defined]
      rfl

end Spelling

/-! ### Marks in the trie -/

/-- A step has the mark of markers in its text. -/
def Step.IsMarked (step : Step) : Prop :=
  ∃ word, step.text? = some word ∧ '!' ∈ word.toList

/-- What is stored for some spellings has a mark exactly if one of them has. -/
theorem exists_marked_entry_iff {spellings : List (List Char)} {code : AgentCode} :
    (∃ entry ∈ entriesOf spellings code, ∃ step ∈ entry.1 ++ [.boundary], step.IsMarked) ↔
      ∃ spelling ∈ spellings, '!' ∈ spelling := by
  have onPath (spelling : List Char) :
      (∃ step ∈ (Phrase.ofChars spelling).rooted, step.IsMarked) ↔ '!' ∈ spelling :=
    Phrase.exists_step_with_mark_iff (by decide) (by decide) (by decide)
  constructor
  · rintro ⟨entry, isEntry, step, isStep, marked⟩
    obtain ⟨path, isPath, rfl⟩ := List.mem_map.mp isEntry
    obtain ⟨spelling, member, rfl⟩ := List.mem_map.mp (List.mem_filter.mp isPath).1
    rcases List.mem_append.mp isStep with isWord | isBoundary
    · exact ⟨spelling, member, (onPath spelling).mp ⟨step, isWord, marked⟩⟩
    · obtain rfl := List.mem_singleton.mp isBoundary
      obtain ⟨word, noText, -⟩ := marked
      cases noText
  · rintro ⟨spelling, member, hasMark⟩
    obtain ⟨step, isStep, marked⟩ := (onPath spelling).mpr hasMark
    refine ⟨((Phrase.ofChars spelling).rooted, code), ?_, step, List.mem_append_left _ isStep,
      marked⟩
    refine List.mem_map.mpr ⟨_, List.mem_filter.mpr ⟨List.mem_map.mpr ⟨spelling, member, rfl⟩, ?_⟩,
      rfl⟩
    simpa using List.ne_nil_of_mem isStep

/-- A line leaves a mark over: it gives a role whose phrase or plural does. -/
def LineLeavesMark (above : List Line) (line : Line) : Prop :=
  ∃ phrase plural? code, AgentItem.read (trim line.text) = .ok (.role phrase plural? code) ∧
    LeavesMark (latestItems? above) phrase plural?

theorem exists_marked_added_iff {above : List Line} {line : Line} :
    (∃ entry ∈ addedOn above line, ∃ step ∈ entry.1 ++ [.boundary], step.IsMarked) ↔
      LineLeavesMark above line := by
  unfold addedOn LineLeavesMark
  simp only [← exists_marked_spelling_iff]
  cases AgentItem.read (trim line.text) with
  | error skip => simp
  | ok item =>
    cases item with
    | marker name items => simp
    | role phrase plural? code =>
      cases spelled : spellingsOf (latestItems? above) phrase plural? with
      | error skip =>
        refine iff_of_false (by simp only [spelled]; simp) ?_
        rintro ⟨_, _, _, same, spellings, isSpelled, -⟩
        cases same
        cases spelled.symm.trans isSpelled
      | ok spellings =>
        simp only [spelled]
        rw [exists_marked_entry_iff]
        constructor
        · intro marked
          exact ⟨phrase, plural?, code, rfl, spellings, spelled, marked⟩
        · rintro ⟨_, _, _, same, _, isSpelled, marked⟩
          cases same
          cases spelled.symm.trans isSpelled
          exact marked

namespace AgentDictionary

/-- A mark is stored exactly if a line leaves one over, below the lines above it. A phrase with a
mark whose first marker cannot be replaced is skipped with a diagnostic, and without its line the
dictionary is the same. -/
theorem marks_left_over (file : String) (script : Script) :
    ((∃ node step next,
        (compile file script).dictionary.phrases.child? node step = some next ∧ step.IsMarked) ↔
      ∃ above line below, script.lines = above ++ line :: below ∧ LineLeavesMark above line) ∧
    ∀ above line below, script.lines = above ++ line :: below → ∀ phrase plural? code,
      AgentItem.read (trim line.text) = .ok (.role phrase plural? code) → ∀ skip,
        CannotExpand (latestItems? above) phrase skip →
          ⟨file, line.number, skip⟩ ∈ (compile file script).diagnostics.toList ∧
            (compile file ⟨above ++ below, script.failedAfter⟩).dictionary =
              (compile file script).dictionary := by
  constructor
  · rw [phrases_compile, Trie.exists_child?_with_iff]
    simp only [mem_addedFrom, List.nil_append, ← exists_marked_added_iff]
    constructor
    · rintro ⟨entry, ⟨above, line, below, shape, isAdded⟩, marked⟩
      exact ⟨above, line, below, shape, entry, isAdded, marked⟩
    · rintro ⟨above, line, below, shape, entry, isAdded, marked⟩
      exact ⟨entry, ⟨above, line, below, shape, isAdded⟩, marked⟩
  · intro above line below shape phrase plural? code isRole skip cannot
    obtain ⟨lines, failedAfter⟩ := script
    obtain rfl : lines = above ++ line :: below := shape
    have isSkipped : skipOn? above line = some skip := by
      rw [skipOn?, isRole]
      dsimp only
      rw [spellingsOf_eq_error_iff.mpr cannot]
    exact skipped_compile file failedAfter isSkipped

/-- An item with a mark, and a marker that nothing defines. -/
def markedItemScript : Script where
  lines := List.mapIdx (fun index text => ⟨index + 1, text.toList⟩)
    ["!PERSON! = MAN, MEN!", "CONGRESS!PERSON! [~LEG]", "!MINIST!_OF_DEFENSE [~GOVDEF]"]
  failedAfter := none

theorem markedItemScript_leaves_mark :
    (∃ node step next,
      (compile "agents" markedItemScript).dictionary.phrases.child? node step = some next ∧
        step.IsMarked) ∧
      ⟨"agents", 3, .undefinedMarker "MINIST"⟩ ∈
        (compile "agents" markedItemScript).diagnostics.toList := by
  let person : Line := ⟨1, "!PERSON! = MAN, MEN!".toList⟩
  let congress : Line := ⟨2, "CONGRESS!PERSON! [~LEG]".toList⟩
  let ministry : Line := ⟨3, "!MINIST!_OF_DEFENSE [~GOVDEF]".toList⟩
  obtain ⟨leaves, skips⟩ := marks_left_over "agents" markedItemScript
  constructor
  · have isRole : AgentItem.read (trim congress.text) =
        .ok (.role "CONGRESS!PERSON!".toList none ⟨"LEG", .after⟩) := by
      decide +kernel
    have marker : HasMarker "CONGRESS!PERSON!".toList "CONGRESS".toList "PERSON".toList [] :=
      ⟨rfl, by decide, by decide⟩
    have defined : latestItems? [person] (String.ofList "PERSON".toList) =
        some ["MAN", "MEN!"] := by
      decide +kernel
    have left : '!' ∈ "MEN!".toList := by decide
    refine leaves.mpr ⟨[person], congress, [ministry], rfl, _, none, _, isRole, ?_⟩
    exact .expansion marker defined (List.mem_cons_of_mem _ List.mem_cons_self) (.inl left)
  · have isRole : AgentItem.read (trim ministry.text) =
        .ok (.role "!MINIST!_OF_DEFENSE".toList none ⟨"GOVDEF", .after⟩) := by
      decide +kernel
    have marker :
        HasMarker "!MINIST!_OF_DEFENSE".toList [] "MINIST".toList "_OF_DEFENSE".toList :=
      ⟨rfl, by decide, by decide⟩
    have undefined : latestItems? [person, congress] (String.ofList "MINIST".toList) = none := by
      decide +kernel
    have skipped := skips [person, congress] ministry [] rfl _ none _ isRole _
      (.undefined marker undefined)
    exact skipped.1

/-- A phrase with two markers that are both defined. -/
def twoMarkersScript : Script where
  lines := List.mapIdx (fun index text => ⟨index + 1, text.toList⟩)
    ["!X! = A", "!Y! = B", "P!X!!Y! [~C]"]
  failedAfter := none

/-- The second marker is left over, and nothing tells of it. -/
theorem second_marker_left_over :
    (compile "agents" twoMarkersScript).diagnostics = #[] ∧
      ¬ ∀ node step next,
        (compile "agents" twoMarkersScript).dictionary.phrases.child? node step = some next →
          ¬ step.IsMarked := by
  have isChild : (compile "agents" twoMarkersScript).dictionary.phrases.child? 0
      (.root "PA!Y!") = some 1 := by
    decide +kernel
  refine ⟨by decide +kernel, fun unmarked => ?_⟩
  exact unmarked 0 _ 1 isChild ⟨"PA!Y!", rfl, by decide⟩

end AgentDictionary

end Codebook
