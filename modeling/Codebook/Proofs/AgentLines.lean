/-
This file says what the lines of an agent file do. A line defines a marker, or it gives the phrase
of a role with a code, or it is refused. A phrase without markers stands for itself and its plural,
any other for one phrase per item of its first marker, and which items that has is decided by the
lines above. Main statement: what is stored for a file is what its lines add, each after those above
it (`AgentDictionary.phrases_compile`).
-/

import Codebook.Proofs.SkippedLines
import Codebook.Proofs.TrieStorage

namespace Codebook

open Text

/-! ### What stands on a line -/

/-- What there is on an agent line. -/
inductive AgentItem
  | marker (name : String) (items : List String)
  /-- A phrase in upper case, what stands in braces behind it, and the code. -/
  | role (phrase : List Char) (plural? : Option (List Char)) (code : AgentCode)
deriving DecidableEq, Repr

namespace AgentItem

/-- The items of a marker: the pieces between commas that are not blank, in upper case. -/
def itemsOf (text : List Char) : List String :=
  (((pieces (· == ',') text).map fun item => upperChars (trim item)).filter
    fun item => !item.isEmpty).map String.ofList

/-- The marker that a line defines, of which the part behind the first `!` is given. -/
def readMarker (text : List Char) : Except Skip AgentItem :=
  match splitAt? (· == '!') text with
  | none => .error .unclosedMarkerName
  | some (name, rest) =>
    match splitAt? (· == '=') rest with
    | none => .error .markerWithoutItems
    | some (_, items) => .ok (.marker (String.ofList (upperChars (trim name))) (itemsOf items))

/-- The role on a line. -/
def readRole (line : List Char) : Except Skip AgentItem := do
  let (body, code?) := splitCode line
  let some raw := code? | throw .agentWithoutCode
  let code ← AgentCode.read raw.toList
  let (phrase, plural?) ← AgentState.splitPlural body
  let phrase := upperChars (dropEndWhile (· == '_') phrase)
  if phrase.isEmpty then throw .agentWithoutPhrase
  return .role phrase plural? code

/-- A role can be read exactly if there is a code that can be read, the braces are closed and
something is left of the phrase without the underscores at its end. -/
theorem readRole_eq_ok_iff {line : List Char} {item : AgentItem} :
    readRole line = .ok item ↔ ∃ raw code text plural?, (splitCode line).2 = some raw ∧
      AgentCode.read raw.toList = .ok code ∧
      AgentState.splitPlural (splitCode line).1 = .ok (text, plural?) ∧
      upperChars (dropEndWhile (· == '_') text) ≠ [] ∧
      item = .role (upperChars (dropEndWhile (· == '_') text)) plural? code := by
  rcases split : splitCode line with ⟨body, _ | raw⟩
  · simp [readRole, split, throw, throwThe, MonadExceptOf.throw]
  cases isRead : AgentCode.read raw.toList with
  | error skip => simp [readRole, split, isRead, bind, Except.bind]
  | ok code =>
    rcases closed : AgentState.splitPlural body with skip | ⟨text, plural?⟩
    · simp [readRole, split, isRead, closed, bind, Except.bind]
    simp only [readRole, split, isRead, closed, bind, Except.bind, List.isEmpty_iff]
    constructor
    · intro isRole
      split at isRole
      next => cases isRole
      next nonempty => exact ⟨raw, code, text, plural?, rfl, isRead, rfl, nonempty,
          (Except.ok.inj isRole).symm⟩
    · rintro ⟨_, _, _, _, sameRaw, codeRead, same, nonempty, rfl⟩
      obtain rfl := Option.some.inj sameRaw
      obtain ⟨rfl, rfl⟩ := Prod.mk.inj (Except.ok.inj same)
      rw [if_neg nonempty, Except.ok.inj (codeRead.symm.trans isRead)]
      rfl

/-- What stands on a trimmed line, or why the line is refused. -/
def read (line : List Char) : Except Skip AgentItem :=
  match line with
  | '!' :: rest => if rest.contains '=' then readMarker rest else readRole line
  | _ => readRole line

/-- A line that is taken for the definition of a marker: it starts with `!` and has a `=`. -/
def IsDefinition (line : List Char) : Prop :=
  ∃ rest, line = '!' :: rest ∧ '=' ∈ rest

theorem read_of_not_isDefinition {line : List Char} (notDefinition : ¬ IsDefinition line) :
    read line = readRole line := by
  unfold read
  split
  next rest =>
    refine if_neg fun hasSign => notDefinition ⟨rest, rfl, ?_⟩
    simpa using hasSign
  next => rfl

/-- A line that defines a marker has the mark before its code. -/
theorem not_isDefinition_of_unmarked {line : List Char} (unmarked : '!' ∉ (splitCode line).1) :
    ¬ IsDefinition line := by
  rintro ⟨rest, rfl, -⟩
  have first := head?_splitCode (by decide : isSpace '!' = false) (by decide) rest
  exact unmarked (List.mem_of_head? first)

end AgentItem

/-- What stands on a line before the code in brackets. -/
def Line.beforeCode (line : Line) : List Char :=
  (splitCode (trim line.text)).1

/-- The spellings of a phrase, given the items of markers, or why it cannot be spelled. -/
def spellingsOf (items? : String → Option (List String)) (phrase : List Char)
    (plural? : Option (List Char)) : Except Skip (List (List Char)) :=
  match splitAt? (· == '!') phrase with
  | none => .ok (AgentState.spellings phrase plural?)
  | some (head, rest) =>
    match splitAt? (· == '!') rest with
    | none => .error (.unclosedMarker (String.ofList phrase))
    | some (name, tail) =>
      match items? (String.ofList name) with
      | none => .error (.undefinedMarker (String.ofList name))
      | some items => .ok (items.map fun item => head ++ item.toList ++ tail)

/-- A phrase without markers stands for itself and its plural. -/
theorem spellingsOf_of_unmarked (items? : String → Option (List String)) {phrase : List Char}
    (unmarked : '!' ∉ phrase) (plural? : Option (List Char)) :
    spellingsOf items? phrase plural? = .ok (AgentState.spellings phrase plural?) := by
  rw [spellingsOf, splitAt?_beq_eq_none_iff.mpr unmarked]

/-! ### One line -/

namespace AgentState

/-- Stores what has been read, unless the line is refused or its phrase cannot be spelled. -/
def settle (state : AgentState) : Except Skip AgentItem → AgentState × Option Skip
  | .error skip => (state, some skip)
  | .ok (.marker name items) => (state.addMarker name items, none)
  | .ok (.role phrase plural? code) =>
    match spellingsOf state.markers.get? phrase plural? with
    | .error skip => (state, some skip)
    | .ok spellings => (state.storeAll spellings code, none)

theorem perform_defineMarker (text : List Char) (state : AgentState) :
    (defineMarker text).perform state = state.settle (AgentItem.readMarker text) := by
  unfold defineMarker AgentItem.readMarker
  cases splitAt? (· == '!') text with
  | none => rfl
  | some parts =>
    dsimp only
    cases splitAt? (· == '=') parts.2 <;> rfl

/-- What reads the state first goes by the state it meets. -/
theorem perform_get_bind (further : AgentState → Handling AgentState Unit) (state : AgentState) :
    Handling.perform (get >>= further) state = (further state).perform state := rfl

theorem perform_expandMarker {phrase : List Char} (marked : '!' ∈ phrase)
    (plural? : Option (List Char)) (code : AgentCode) (state : AgentState) :
    (expandMarker phrase code).perform state =
      state.settle (.ok (.role phrase plural? code)) := by
  cases first : splitAt? (· == '!') phrase with
  | none => exact absurd marked (splitAt?_beq_eq_none_iff.mp first)
  | some parts =>
    obtain ⟨head, rest⟩ := parts
    cases second : splitAt? (· == '!') rest with
    | none =>
      simp only [expandMarker, settle, spellingsOf, first, second]
      rfl
    | some parts =>
      obtain ⟨name, tail⟩ := parts
      simp only [expandMarker, settle, spellingsOf, first, second, perform_get_bind]
      cases state.markers.get? (String.ofList name) <;> rfl

/-- What has to be read first refuses the line if it cannot be read. -/
theorem perform_lift_bind {Value : Type} (read : Except Skip Value)
    (further : Value → Handling AgentState Unit) (state : AgentState) :
    Handling.perform (liftM read >>= further) state =
      match read with
      | .ok value => (further value).perform state
      | .error skip => (state, some skip) := by
  cases read <;> rfl

theorem perform_storePhrase (line : List Char) (state : AgentState) :
    (storePhrase line).perform state = state.settle (AgentItem.readRole line) := by
  rcases split : splitCode line with ⟨body, _ | raw⟩
  · simp only [storePhrase, AgentItem.readRole, split]
    rfl
  · simp only [storePhrase, AgentItem.readRole, split, perform_lift_bind]
    cases AgentCode.read raw.toList with
    | error skip => rfl
    | ok code =>
      cases splitPlural body with
      | error skip => rfl
      | ok parts =>
        obtain ⟨text, plural?⟩ := parts
        simp only [bind, Except.bind]
        cases isEmpty : (upperChars (dropEndWhile (· == '_') text)).isEmpty with
        | true => rfl
        | false =>
          simp only [Bool.false_eq_true, if_false]
          generalize upperChars (dropEndWhile (· == '_') text) = phrase
          by_cases marked : '!' ∈ phrase
          · rw [if_pos (by simpa using marked), perform_expandMarker marked plural?]
            rfl
          · rw [if_neg (by simpa using marked)]
            show _ = state.settle (.ok (.role phrase plural? code))
            rw [settle, spellingsOf_of_unmarked _ marked]
            rfl

theorem perform_store (line : List Char) (state : AgentState) :
    (store line).perform state = state.settle (AgentItem.read line) := by
  unfold store
  split
  next rest =>
    rw [AgentItem.read]
    split
    next => exact perform_defineMarker rest state
    next => exact perform_storePhrase _ state
  next notMarked =>
    rw [AgentItem.read]
    · exact perform_storePhrase _ state
    · exact notMarked

/-- A line does what the item on it says. -/
theorem handle_eq (state : AgentState) (line : Line) :
    state.handle line = state.settle (AgentItem.read (trim line.text)) :=
  perform_store _ state

end AgentState

/-! ### The lines above -/

/-- The items a line defines for a marker, if it defines any. -/
def definedItems? (name : String) (line : Line) : Option (List String) :=
  match AgentItem.read (trim line.text) with
  | .ok (.marker other items) => if other = name then some items else none
  | _ => none

/-- The items of a marker by the last of some lines that defines it. -/
def latestItems? (lines : List Line) (name : String) : Option (List String) :=
  lines.reverse.findSome? (definedItems? name)

theorem latestItems?_concat (lines : List Line) (line : Line) (name : String) :
    latestItems? (lines ++ [line]) name =
      (definedItems? name line).or (latestItems? lines name) := by
  rw [latestItems?, List.reverse_append, List.reverse_singleton, List.singleton_append,
    List.findSome?_cons, latestItems?]
  cases definedItems? name line <;> rfl

/-- What spellings of a phrase come to in the trie. One without any word is passed over. -/
def entriesOf (spellings : List (List Char)) (code : AgentCode) : List (Path × AgentCode) :=
  ((spellings.map fun spelling => (Phrase.ofChars spelling).rooted).filter
    fun path => !path.isEmpty).map (·, code)

/-- What a line below others adds. -/
def addedOn (above : List Line) (line : Line) : List (Path × AgentCode) :=
  match AgentItem.read (trim line.text) with
  | .ok (.role phrase plural? code) =>
    match spellingsOf (latestItems? above) phrase plural? with
    | .ok spellings => entriesOf spellings code
    | .error _ => []
  | _ => []

/-- Why a line below others is skipped, if it is. -/
def skipOn? (above : List Line) (line : Line) : Option Skip :=
  match AgentItem.read (trim line.text) with
  | .ok (.role phrase plural? _) =>
    match spellingsOf (latestItems? above) phrase plural? with
    | .ok _ => none
    | .error skip => some skip
  | .ok (.marker _ _) => none
  | .error skip => some skip

namespace AgentState

/-- A state has the markers that some lines define. -/
def KnowsMarkers (state : AgentState) (above : List Line) : Prop :=
  state.markers.get? = latestItems? above

theorem knowsMarkers_start : start.KnowsMarkers [] := by
  funext name
  exact SortedMap.get?_empty name

/-- A line below others adds what it is said to add, is skipped as it is said, and defines the
marker on it. -/
theorem KnowsMarkers.handle {state : AgentState} {above : List Line}
    (knows : state.KnowsMarkers above) (line : Line) :
    (state.handle line).1.dictionary.phrases =
        state.dictionary.phrases.insertAll (addedOn above line) ∧
      (state.handle line).2 = skipOn? above line ∧
      (state.handle line).1.KnowsMarkers (above ++ [line]) := by
  have markers : state.markers.get? = latestItems? above := knows
  have others (undefined : ∀ name, definedItems? name line = none) :
      latestItems? (above ++ [line]) = latestItems? above := by
    funext name
    rw [latestItems?_concat, undefined, Option.none_or]
  rw [handle_eq, KnowsMarkers]
  unfold addedOn skipOn?
  cases isRead : AgentItem.read (trim line.text) with
  | error skip =>
    rw [others fun name => by simp [definedItems?, isRead]]
    exact ⟨rfl, rfl, knows⟩
  | ok item =>
    cases item with
    | marker name items =>
      refine ⟨rfl, rfl, ?_⟩
      funext other
      rw [latestItems?_concat, ← markers]
      show (state.markers.insert name items).get? other = _
      by_cases same : name = other
      · rw [same, SortedMap.get?_insert_self]
        simp [definedItems?, isRead, same]
      · rw [SortedMap.get?_insert_of_ne _ _ (Ne.symm same)]
        simp [definedItems?, isRead, same]
    | role phrase plural? code =>
      rw [others fun name => by simp [definedItems?, isRead]]
      simp only [settle, markers]
      cases spellingsOf (latestItems? above) phrase plural? with
      | error skip => exact ⟨rfl, rfl, knows⟩
      | ok spellings => exact ⟨rfl, rfl, knows⟩

end AgentState

/-! ### All lines -/

/-- What some lines below others add, in order. -/
def addedFrom (above : List Line) : List Line → List (Path × AgentCode)
  | [] => []
  | line :: below => addedOn above line ++ addedFrom (above ++ [line]) below

/-- What lines add is added by one of them, below those above it. -/
theorem mem_addedFrom {above lines : List Line} {entry : Path × AgentCode} :
    entry ∈ addedFrom above lines ↔
      ∃ front line below, lines = front ++ line :: below ∧
        entry ∈ addedOn (above ++ front) line := by
  induction lines generalizing above with
  | nil => simp [addedFrom]
  | cons first rest inductionHypothesis =>
    rw [addedFrom, List.mem_append, inductionHypothesis]
    constructor
    · rintro (here | ⟨front, line, below, rfl, later⟩)
      · exact ⟨[], first, rest, rfl, by rwa [List.append_nil]⟩
      · exact ⟨first :: front, line, below, rfl, by rwa [List.append_cons]⟩
    · rintro ⟨_ | ⟨_, front⟩, line, below, same, isAdded⟩
      · obtain ⟨rfl, rfl⟩ := List.cons.inj same
        exact .inl (by rwa [List.append_nil] at isAdded)
      · obtain ⟨rfl, rfl⟩ := List.cons.inj same
        exact .inr ⟨front, line, below, rfl, by rwa [List.append_cons] at isAdded⟩

theorem addedFrom_append (above front back : List Line) :
    addedFrom above (front ++ back) = addedFrom above front ++ addedFrom (above ++ front) back := by
  induction front generalizing above with
  | nil => rw [List.append_nil]; rfl
  | cons line rest inductionHypothesis =>
    rw [List.cons_append, addedFrom, inductionHypothesis, addedFrom, List.append_assoc,
      List.append_assoc, List.singleton_append]

/-- There is a diagnostic for each line that is skipped. -/
theorem mem_reported {file : String} {lines : List Line} {fates : List Fate} {index : Nat}
    {line : Line} {skip : Skip} (here : lines[index]? = some line)
    (fate : fates[index]? = some (.skipped skip)) :
    ⟨file, line.number, skip⟩ ∈ reported file lines fates := by
  refine List.mem_filterMap.mpr ⟨(line, .skipped skip), ?_, rfl⟩
  exact List.mem_of_getElem? (List.getElem?_zip_eq_some.mpr ⟨here, fate⟩)

theorem AgentState.KnowsMarkers.getElem?_fatesFrom {state : AgentState} {earlier : List Line}
    (knows : state.KnowsMarkers earlier) (above : List Line) (line : Line) (below : List Line) :
    (fatesFrom (fun _ => false) AgentState.handle state (above ++ line :: below))[above.length]? =
      some (.ofSkip? (skipOn? (earlier ++ above) line)) := by
  induction above generalizing state earlier with
  | nil =>
    rw [List.nil_append, fatesFrom_cons rfl, (knows.handle line).2.1, List.append_nil]
    rfl
  | cons first rest inductionHypothesis =>
    obtain ⟨-, -, knowsMore⟩ := knows.handle first
    rw [List.cons_append, fatesFrom_cons rfl, List.length_cons, List.getElem?_cons_succ,
      inductionHypothesis knowsMore, List.append_assoc, List.singleton_append]

theorem AgentState.KnowsMarkers.foldl_handle {state : AgentState} {above : List Line}
    (knows : state.KnowsMarkers above) (lines : List Line) :
    (lines.foldl (fun state line => (state.handle line).1) state).dictionary.phrases =
      state.dictionary.phrases.insertAll (addedFrom above lines) := by
  induction lines generalizing state above with
  | nil => rfl
  | cons line rest inductionHypothesis =>
    obtain ⟨phrases, -, knowsMore⟩ := knows.handle line
    rw [List.foldl_cons, inductionHypothesis knowsMore, phrases, addedFrom, Trie.insertAll_append]

theorem AgentState.KnowsMarkers.handleLines {state : AgentState} {above : List Line}
    (knows : state.KnowsMarkers above) (file : String) (lines : List Line) :
    (handleLines AgentState.handle file state lines).1.KnowsMarkers (above ++ lines) := by
  induction lines generalizing state above with
  | nil => rwa [List.append_nil]
  | cons line rest inductionHypothesis =>
    obtain ⟨-, -, knowsMore⟩ := knows.handle line
    rw [handleLines_cons, List.append_cons]
    exact inductionHypothesis knowsMore

namespace AgentDictionary

/-- What a file stores is what its lines add. -/
theorem phrases_compile (file : String) (script : Script) :
    (compile file script).dictionary.phrases =
      Trie.empty.insertAll (addedFrom [] script.lines) := by
  have folded := AgentState.knowsMarkers_start.foldl_handle script.lines
  rw [← handleLines_fst AgentState.handle file] at folded
  exact folded

/-- A line that cannot be stored is skipped, and the dictionary is the same without it. -/
theorem skipped_compile (file : String) (failedAfter : Option Nat) {above below : List Line}
    {line : Line} {skip : Skip} (isSkipped : skipOn? above line = some skip) :
    ⟨file, line.number, skip⟩ ∈
        (compile file ⟨above ++ line :: below, failedAfter⟩).diagnostics.toList ∧
      (compile file ⟨above ++ below, failedAfter⟩).dictionary =
        (compile file ⟨above ++ line :: below, failedAfter⟩).dictionary := by
  have fate := AgentState.knowsMarkers_start.getElem?_fatesFrom above line below
  rw [List.nil_append, isSkipped] at fate
  have noTrace := skipsLeaveNoTrace file failedAfter
  constructor
  · rw [noTrace.reports]
    exact mem_reported (by simp) fate
  · rw [← (noTrace.withoutOne _ _ _ fate).1, List.eraseIdx_append_of_length_le (Nat.le_refl _),
      Nat.sub_self, List.eraseIdx_cons_zero]

/-! ### One line of a file -/

/-- What comes of a line below others, whatever stands below it: it adds entries behind those of the
lines above, and it leaves a diagnostic if it is skipped. -/
structure HasEffect (file : String) (above : List Line) (line : Line)
    (entries : List (Path × AgentCode)) (skip? : Option Skip) : Prop where
  phrases : (compile file ⟨above ++ [line], none⟩).dictionary.phrases =
    (compile file ⟨above, none⟩).dictionary.phrases.insertAll entries
  diagnostics : (compile file ⟨above ++ [line], none⟩).diagnostics =
    (compile file ⟨above, none⟩).diagnostics ++ (diagnostic? file line skip?).toArray
  kept (below : List Line) (failedAfter : Option Nat) : ∃ later reports,
    (compile file ⟨above ++ line :: below, failedAfter⟩).dictionary.phrases =
        (compile file ⟨above ++ [line], none⟩).dictionary.phrases.insertAll later ∧
      (compile file ⟨above ++ line :: below, failedAfter⟩).diagnostics =
        (compile file ⟨above ++ [line], none⟩).diagnostics ++ reports

/-- The effect of a line is the one it has below the lines above it. -/
theorem hasEffect (file : String) (above : List Line) (line : Line) :
    HasEffect file above line (addedOn above line) (skipOn? above line) where
  phrases := by
    rw [phrases_compile, phrases_compile, addedFrom_append, Trie.insertAll_append]
    show _ = (Trie.empty.insertAll _).insertAll _
    simp [addedFrom]
  diagnostics := by
    have knows := AgentState.knowsMarkers_start.handleLines file above
    obtain ⟨-, skipped, -⟩ := knows.handle line
    show (handleLines AgentState.handle file .start (above ++ [line])).2 = _
    rw [diagnostics_handleLines_append, handleLines_cons, skipped]
    rfl
  kept below failedAfter := by
    let here := (handleLines AgentState.handle file .start (above ++ [line])).1
    refine ⟨addedFrom (above ++ [line]) below, (handleLines AgentState.handle file here below).2,
      ?_, ?_⟩
    · rw [phrases_compile, phrases_compile, ← Trie.insertAll_append, List.append_cons,
        addedFrom_append, List.nil_append]
    · show (handleLines AgentState.handle file .start (above ++ line :: below)).2 = _
      rw [List.append_cons, diagnostics_handleLines_append]
      rfl

theorem phrases_shape (file : String) (script : Script) :
    (compile file script).dictionary.phrases.WellFormed := by
  rw [phrases_compile]
  exact Trie.wellFormed_empty.insertAll _

/-- A line is accepted, that is, it adds no diagnostic, exactly if it is not skipped. -/
theorem accepted_iff {file : String} {above : List Line} {line : Line} :
    (compile file ⟨above ++ [line], none⟩).diagnostics =
        (compile file ⟨above, none⟩).diagnostics ↔ skipOn? above line = none := by
  rw [(hasEffect file above line).diagnostics]
  cases skipOn? above line <;> simp [diagnostic?]

/-- On no path two effects of a line differ. -/
theorem HasEffect.filter_eq {file : String} {above : List Line} {line : Line}
    {entries others : List (Path × AgentCode)} {skip? other? : Option Skip}
    (hasOne : HasEffect file above line entries skip?)
    (hasOther : HasEffect file above line others other?) (path : Path) :
    (entries.filter fun entry => entry.1 = path).map (·.2) =
      (others.filter fun entry => entry.1 = path).map (·.2) := by
  have found := congrArg (Trie.find · path) (hasOne.phrases.symm.trans hasOther.phrases)
  rw [(phrases_shape file _).find_insertAll, (phrases_shape file _).find_insertAll] at found
  exact List.append_cancel_left found

end AgentDictionary

end Codebook
