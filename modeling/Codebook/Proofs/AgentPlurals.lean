/-
This file says what the regular plural does to the path of an agent phrase. The plural is formed of
the text, of which only the underscores at the end have been cut off. It changes the last word if
the text then ends with one; white space before the underscores stays and becomes a gap, behind
which the `S` is a word of its own. Main statement: a line stores its phrase and the same path with
the last word in the plural exactly unless such white space is left
(`AgentDictionary.plural_changes_lastWord_iff`).
-/

import Codebook.Proofs.AgentLines
import Codebook.Proofs.InflectedWords
import Codebook.Proofs.PhraseLinks

namespace Codebook

open Text

/-! ### Plurals of words -/

namespace Inflection

/-- A word in upper case and its plural. A final `Y` becomes `IES`, a final `S` takes `ES`, and any
other word takes `S`. -/
inductive IsPlural : List Char → List Char → Prop
  | ofY (stem : List Char) : IsPlural (stem ++ ['Y']) (stem ++ ['I', 'E', 'S'])
  | ofS (stem : List Char) : IsPlural (stem ++ ['S']) (stem ++ ['S', 'E', 'S'])
  | ofOther (stem : List Char) {last : Char} (notY : last ≠ 'Y') (notS : last ≠ 'S') :
    IsPlural (stem ++ [last]) (stem ++ [last, 'S'])

theorem isPlural_agentPlural {word : List Char} (nonempty : word ≠ []) :
    IsPlural word (agentPlural word) := by
  obtain ⟨stem, last, rfl⟩ := (List.eq_nil_or_concat' word).resolve_left nonempty
  by_cases isS : last = 'S'
  · subst isS
    simpa [agentPlural, endsIn] using IsPlural.ofS stem
  by_cases isY : last = 'Y'
  · subst isY
    simpa [agentPlural, synsetPlural, endsIn] using IsPlural.ofY stem
  · simpa [agentPlural, synsetPlural, endsIn, isS, isY] using IsPlural.ofOther stem isY isS

end Inflection

/-- A path and the path with the same words and links, of which only the last word is in the
plural. -/
inductive IsPluralPath : Path → Path → Prop
  | intro (front : Path) {word plural : List Char} (link : Link)
    (isPlural : Inflection.IsPlural word plural) :
    IsPluralPath (front ++ [.word (String.ofList word) link])
      (front ++ [.word (String.ofList plural) link])

namespace IsPluralPath

variable {path plural : Path}

theorem ne_nil (isPlural : IsPluralPath path plural) : path ≠ [] ∧ plural ≠ [] := by
  cases isPlural with
  | intro => exact ⟨List.concat_ne_nil _ _, List.concat_ne_nil _ _⟩

theorem length_eq (isPlural : IsPluralPath path plural) : plural.length = path.length := by
  cases isPlural with
  | intro => rw [List.length_append, List.length_append]; rfl

end IsPluralPath

namespace Phrase

open Inflection

/-- The plural of a text that ends with a word has the path with this word in the plural. -/
theorem isPluralPath_of_word {text : List Char} (isUpper : IsUpperCase text) {last : Char}
    (isLast : text.getLast? = some last) (inWord : isSeparator last = false) :
    IsPluralPath (ofChars text).rooted (ofChars (agentPlural text)).rooted := by
  obtain ⟨front, word, rfl, nonempty, unseparated, apart⟩ := exists_append_run isLast inWord
  have isPlural := isPlural_agentPlural nonempty
  have pluralUnseparated : ∀ c ∈ agentPlural word, isSeparator c = false :=
    forall_mem_agentPlural unseparated fun _ => isSeparator_of_isUpper
  have pluralNonempty : agentPlural word ≠ [] := by
    unfold agentPlural synsetPlural
    split
    · simp
    · split <;> simp
  have wordUpper : IsUpperCase word := fun c member =>
    isUpper c (List.mem_append_right front member)
  have pluralUpper : IsUpperCase (agentPlural word) :=
    forall_mem_agentPlural wordUpper fun _ => upperChar_of_isUpper
  have path {other : List Char} (otherNonempty : other ≠ [])
      (otherUnseparated : ∀ c ∈ other, isSeparator c = false) (otherUpper : IsUpperCase other) :
      (ofChars (front ++ other)).rooted =
        (ofChars front).rooted ++ [.word (String.ofList other) (linkBehind front)] := by
    have added := rooted_append_word apart otherNonempty otherUnseparated (List.forall_mem_nil _)
    rwa [List.append_nil, upper, String.toList_ofList, otherUpper.upperChars_eq] at added
  rw [agentPlural_append front nonempty, path nonempty unseparated wordUpper,
    path pluralNonempty pluralUnseparated pluralUpper]
  exact .intro _ _ isPlural

/-- Behind white space the ending of the plural is a word. -/
theorem rooted_agentPlural_of_isSpace {text : List Char} {last : Char}
    (isLast : text.getLast? = some last) (isBlank : isSpace last = true) :
    (ofChars (agentPlural text)).rooted = (ofChars text).rooted ++ [.word "S" .gap] := by
  have noCapital {capital : Char} (isCapital : capital.isUpper) : last ≠ capital := by
    rintro rfl
    rw [isSpace_of_isUpper isCapital] at isBlank
    cases isBlank
  have plural : agentPlural text = text ++ (['S'] ++ []) := by
    simp [agentPlural, synsetPlural, endsIn, isLast, noCapital]
  have apart : ∀ c ∈ text.getLast?, isSeparator c = true := by
    rw [isLast]
    simpa using isSeparator_of_isSpace isBlank
  rw [plural, rooted_append_word apart (by simp) (List.forall_mem_singleton.mpr rfl) (by simp),
    linkBehind_of_isSpace isLast isBlank]
  rfl

end Phrase

/-! ### Underscores at the end -/

/-- White space stands right before the underscores at the end of a text. -/
def HasLooseUnderscores (text : List Char) : Prop :=
  ∃ front blank underscores, text = front ++ blank :: underscores ∧ isSpace blank = true ∧
    ∀ c ∈ underscores, c = '_'

/-- White space before underscores is what is left at the end without them. -/
theorem hasLooseUnderscores_iff {text : List Char} :
    HasLooseUnderscores text ↔ (dropEndWhile (· == '_') text).getLast?.any isSpace := by
  obtain ⟨tail, shape, dropped⟩ := exists_append_dropEndWhile (· == '_') text
  constructor
  · rintro ⟨front, blank, underscores, rfl, isBlank, areUnderscores⟩
    have kept : ∀ c ∈ [blank], (c == '_') = false := by
      rw [List.forall_mem_singleton, beq_eq_false_iff_ne]
      rintro rfl
      cases isBlank
    have allDropped : dropEndWhile (· == '_') underscores = [] := by
      simpa [dropEndWhile] using areUnderscores
    have left := dropEndWhile_append (List.cons_ne_nil blank []) kept front underscores
    rw [List.singleton_append, allDropped] at left
    rw [left]
    simpa using isBlank
  · intro isLoose
    obtain ⟨blank, isLast, isBlank⟩ := (Option.any_eq_true _ _).mp isLoose
    obtain ⟨front, left⟩ := List.getLast?_eq_some_iff.mp isLast
    refine ⟨front, blank, tail, ?_, isBlank, fun c member => by simpa using dropped c member⟩
    rw [left, List.append_assoc] at shape
    exact shape

instance (text : List Char) : Decidable (HasLooseUnderscores text) :=
  decidable_of_iff _ hasLooseUnderscores_iff.symm

/-- Cutting underscores off and upper case leave a phrase its path. -/
theorem Phrase.rooted_withoutUnderscores (text : List Char) :
    (ofChars (upperChars (dropEndWhile (· == '_') text))).rooted = (ofChars text).rooted := by
  obtain ⟨tail, shape, dropped⟩ := exists_append_dropEndWhile (· == '_') text
  have separate : ∀ c ∈ tail, isSeparator c = true := fun c member => by
    rw [eq_of_beq (dropped c member)]
    rfl
  rw [rooted_upperChars]
  conv_rhs => rw [shape, rooted_append_separators separate]

/-! ### Lines -/

/-- The path of what stands on a line before the code. -/
def Line.rolePath (line : Line) : Path :=
  (Phrase.ofChars line.beforeCode).rooted

theorem AgentState.splitPlural_of_unbraced {body : List Char} (unbraced : '\x7b' ∉ body) :
    splitPlural body = .ok (body, none) := by
  rw [splitPlural, splitAt?_beq_eq_none_iff.mpr unbraced]

theorem entriesOf_cons (spelling : List Char) (others : List (List Char)) (code : AgentCode) :
    entriesOf (spelling :: others) code =
      (if (Phrase.ofChars spelling).rooted = [] then []
        else [((Phrase.ofChars spelling).rooted, code)]) ++ entriesOf others code := by
  unfold entriesOf
  rw [List.map_cons, List.filter_cons]
  split <;> simp_all

/-- Behind loose underscores the ending of the plural is a word of its own. -/
theorem entriesOf_of_loose {text : List Char} (isLoose : HasLooseUnderscores text)
    (code : AgentCode) :
    let phrase := upperChars (dropEndWhile (· == '_') text)
    entriesOf [phrase, Inflection.agentPlural phrase] code =
      (if (Phrase.ofChars text).rooted = [] then [] else [((Phrase.ofChars text).rooted, code)]) ++
        [((Phrase.ofChars text).rooted ++ [.word "S" .gap], code)] := by
  intro phrase
  obtain ⟨blank, isEnd, isBlank⟩ :=
    (Option.any_eq_true _ _).mp (hasLooseUnderscores_iff.mp isLoose)
  obtain ⟨last, inImage, isLast⟩ := exists_getLast?_upperChars isEnd
  have lastBlank : isSpace last = true := (isSpace_of_mem_upperChar inImage).trans isBlank
  have plural := Phrase.rooted_agentPlural_of_isSpace isLast lastBlank
  have path : (Phrase.ofChars phrase).rooted = (Phrase.ofChars text).rooted :=
    Phrase.rooted_withoutUnderscores text
  rw [path] at plural
  rw [entriesOf_cons, entriesOf_cons, path, plural, if_neg (List.concat_ne_nil _ _)]
  rfl

/-- Without white space before the underscores the last word is put in the plural. -/
theorem entriesOf_of_not_loose {text : List Char} (notLoose : ¬ HasLooseUnderscores text)
    (nonempty : upperChars (dropEndWhile (· == '_') text) ≠ []) (code : AgentCode) :
    let phrase := upperChars (dropEndWhile (· == '_') text)
    ∃ plural, IsPluralPath (Phrase.ofChars text).rooted plural ∧
      entriesOf [phrase, Inflection.agentPlural phrase] code =
        [((Phrase.ofChars text).rooted, code), (plural, code)] := by
  intro phrase
  have stripped : dropEndWhile (· == '_') text ≠ [] := fun empty =>
    nonempty (upperChars_eq_nil_iff.mpr empty)
  have isEnd := List.getLast?_eq_some_getLast stripped
  generalize (dropEndWhile (· == '_') text).getLast stripped = c at isEnd
  have inWord : isSeparator c = false := by
    have notSpace : isSpace c = false := by
      rw [hasLooseUnderscores_iff, isEnd] at notLoose
      simpa using notLoose
    rw [isSeparator, not_drop_getLast?_dropEndWhile _ _ c isEnd, notSpace, Bool.or_false]
  obtain ⟨last, inImage, isLast⟩ := exists_getLast?_upperChars isEnd
  have isPlural := Phrase.isPluralPath_of_word (isUpperCase_upperChars _) isLast
    ((Phrase.isSeparator_of_mem_upperChar inImage).trans inWord)
  have path : (Phrase.ofChars phrase).rooted = (Phrase.ofChars text).rooted :=
    Phrase.rooted_withoutUnderscores text
  rw [path] at isPlural
  refine ⟨_, isPlural, ?_⟩
  obtain ⟨pathNonempty, pluralNonempty⟩ := isPlural.ne_nil
  rw [entriesOf_cons, entriesOf_cons, path, if_neg pathNonempty, if_neg pluralNonempty]
  rfl

/-- A line without braces and marks that is accepted gives a phrase with its regular plural. -/
theorem exists_addedOn_eq {above : List Line} {line : Line}
    (accepted : skipOn? above line = none) (unbraced : '\x7b' ∉ line.beforeCode)
    (unmarked : '!' ∉ line.beforeCode) :
    let phrase := upperChars (dropEndWhile (· == '_') line.beforeCode)
    ∃ raw code, (splitCode (trim line.text)).2 = some raw ∧ AgentCode.read raw.toList = .ok code ∧
      phrase ≠ [] ∧
      addedOn above line = entriesOf [phrase, Inflection.agentPlural phrase] code := by
  intro phrase
  have asRole : AgentItem.read (trim line.text) = AgentItem.readRole (trim line.text) :=
    AgentItem.read_of_not_isDefinition (AgentItem.not_isDefinition_of_unmarked unmarked)
  unfold skipOn? at accepted
  rw [asRole] at accepted
  cases isRole : AgentItem.readRole (trim line.text) with
  | error skip =>
    rw [isRole] at accepted
    cases accepted
  | ok item =>
    obtain ⟨raw, code, text, plural?, hasCode, isRead, split, nonempty, rfl⟩ :=
      AgentItem.readRole_eq_ok_iff.mp isRole
    obtain ⟨rfl, rfl⟩ := Prod.mk.inj (Except.ok.inj
      ((AgentState.splitPlural_of_unbraced unbraced).symm.trans split))
    have phraseUnmarked : '!' ∉ phrase := by
      obtain ⟨tail, shape, -⟩ := exists_append_dropEndWhile (· == '_') line.beforeCode
      rw [mem_upperChars_iff (by decide) (by decide)]
      exact fun member => unmarked (shape ▸ List.mem_append_left tail member)
    refine ⟨raw, code, hasCode, isRead, nonempty, ?_⟩
    unfold addedOn
    rw [asRole, isRole]
    dsimp only
    rw [spellingsOf_of_unmarked _ phraseUnmarked]
    rfl

namespace AgentDictionary

/-- An accepted line without braces and marks stores its phrase and the plural, both with its code,
exactly unless white space is left before the underscores at the end. Then the ending is stored as a
word of its own behind the phrase, which is missing if it has no words. -/
theorem plural_changes_lastWord_iff (file : String) (above : List Line) {line : Line}
    (accepted : (compile file ⟨above ++ [line], none⟩).diagnostics =
      (compile file ⟨above, none⟩).diagnostics)
    (unbraced : '\x7b' ∉ line.beforeCode) (unmarked : '!' ∉ line.beforeCode) :
    ∃ raw code, (splitCode (trim line.text)).2 = some raw ∧ AgentCode.read raw.toList = .ok code ∧
      ((∃ plural, IsPluralPath line.rolePath plural ∧
          HasEffect file above line [(line.rolePath, code), (plural, code)] none) ↔
        ¬ HasLooseUnderscores line.beforeCode) ∧
      (HasLooseUnderscores line.beforeCode →
        HasEffect file above line
          ((if line.rolePath = [] then [] else [(line.rolePath, code)]) ++
            [(line.rolePath ++ [.word "S" .gap], code)]) none) := by
  have isAccepted := accepted_iff.mp accepted
  obtain ⟨raw, code, hasCode, isRead, nonempty, added⟩ :=
    exists_addedOn_eq isAccepted unbraced unmarked
  have effect := hasEffect file above line
  rw [isAccepted, added] at effect
  have looseEffect (isLoose : HasLooseUnderscores line.beforeCode) :
      HasEffect file above line
        ((if line.rolePath = [] then [] else [(line.rolePath, code)]) ++
          [(line.rolePath ++ [.word "S" .gap], code)]) none := by
    rw [entriesOf_of_loose isLoose] at effect
    exact effect
  refine ⟨raw, code, hasCode, isRead, ⟨?_, fun notLoose => ?_⟩, looseEffect⟩
  · rintro ⟨plural, isPlural, hasPlural⟩ isLoose
    -- The path with the ending as a word is longer than both paths that should be stored.
    have longer : plural ≠ line.rolePath ++ [.word "S" .gap] := by
      rintro rfl
      have lengths := isPlural.length_eq
      simp at lengths
    have same := hasPlural.filter_eq (looseEffect isLoose) (line.rolePath ++ [.word "S" .gap])
    rw [List.filter_append, List.map_append] at same
    simp [longer] at same
  · obtain ⟨plural, isPlural, entries⟩ := entriesOf_of_not_loose notLoose nonempty code
    rw [entries] at effect
    exact ⟨plural, isPlural, effect⟩

/-- Underscores between words and at the end of a phrase. -/
def headLine : Line := ⟨1, "Head_of state_ [~GOV]".toList⟩

/-- Heads of state are stored beside the head of state. -/
theorem heads_of_state_stored :
    (compile "agents" ⟨[] ++ [headLine], none⟩).diagnostics =
        (compile "agents" ⟨[], none⟩).diagnostics ∧
      '\x7b' ∉ headLine.beforeCode ∧ '!' ∉ headLine.beforeCode ∧
      ∃ plural, IsPluralPath headLine.rolePath plural ∧
        HasEffect "agents" [] headLine
          [(headLine.rolePath, ⟨"GOV", .after⟩), (plural, ⟨"GOV", .after⟩)] none := by
  have accepted : (compile "agents" ⟨[] ++ [headLine], none⟩).diagnostics =
      (compile "agents" ⟨[], none⟩).diagnostics := by decide +kernel
  have unbraced : '\x7b' ∉ headLine.beforeCode := by decide +kernel
  have unmarked : '!' ∉ headLine.beforeCode := by decide +kernel
  refine ⟨accepted, unbraced, unmarked, ?_⟩
  obtain ⟨raw, code, hasCode, isRead, iff, -⟩ :=
    plural_changes_lastWord_iff "agents" [] accepted unbraced unmarked
  have written : (splitCode (trim headLine.text)).2 = some "~GOV" := by decide +kernel
  obtain rfl := Option.some.inj (written.symm.trans hasCode)
  have meant : AgentCode.read "~GOV".toList = .ok ⟨"GOV", .after⟩ := by decide +kernel
  obtain rfl := Except.ok.inj (meant.symm.trans isRead)
  exact iff.mpr (by decide +kernel)

/-- A phrase with a blank before the underscore at its end. -/
def looseLine : Line := ⟨1, "FOO _ [~X]".toList⟩

/-- Nobody is stored as `FOOS`: the line is accepted, and behind `FOO` stands the word `S`. -/
theorem foo_s_stored :
    (compile "agents" ⟨[looseLine], none⟩).diagnostics =
        (compile "agents" ⟨[], none⟩).diagnostics ∧
      '\x7b' ∉ looseLine.beforeCode ∧ '!' ∉ looseLine.beforeCode ∧
      (compile "agents" ⟨[looseLine], none⟩).dictionary.phrases.find
          [.word "FOO" .gap, .word "S" .gap] = [⟨"X", .after⟩] ∧
      ¬ ∃ plural code, IsPluralPath looseLine.rolePath plural ∧
        HasEffect "agents" [] looseLine [(looseLine.rolePath, code), (plural, code)] none := by
  have added : addedOn [] looseLine = [([.word "FOO" .gap], ⟨"X", .after⟩),
      ([.word "FOO" .gap, .word "S" .gap], ⟨"X", .after⟩)] := by decide +kernel
  have effect := hasEffect "agents" [] looseLine
  rw [added] at effect
  refine ⟨by decide +kernel, by decide +kernel, by decide +kernel, by decide +kernel, ?_⟩
  rintro ⟨plural, code, isPlural, hasPlural⟩
  have path : looseLine.rolePath = [.word "FOO" .gap] := by decide +kernel
  have longer : plural ≠ [.word "FOO" .gap, .word "S" .gap] := by
    rintro rfl
    have lengths := isPlural.length_eq
    rw [path] at lengths
    cases lengths
  have same := hasPlural.filter_eq effect [.word "FOO" .gap, .word "S" .gap]
  rw [path] at same
  simp [longer] at same

end AgentDictionary

end Codebook
