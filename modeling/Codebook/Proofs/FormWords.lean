/-
This file says which surface forms are made of words. Every form is stored around a root, and the
words around it are words of running text, but the root need not be one: a form that is listed for
a single-word verb is stored as it is written, underscores included, and a mark may stand alone.
Main statement: the stored words are words of running text exactly if no verb line has such a flaw,
and running text leads to a form exactly if the words of the form are of this kind
(`VerbDictionary.forms_are_words_iff`).
-/

import Codebook.Proofs.MultiWordForms
import Codebook.Proofs.PhraseWords
import Codebook.Proofs.TrieNodes
import Mathlib.Data.List.TakeWhile

namespace Codebook

open Text

/-! ### Words of running text -/

/-- Whether a text can be a word of running text. -/
def IsWord (text : List Char) : Prop :=
  text ≠ [] ∧ ∀ c ∈ text, isSeparator c = false

/-- Words are not empty, and hold neither an underscore nor white space. -/
theorem isWord_iff {text : List Char} :
    IsWord text ↔ text ≠ [] ∧ '_' ∉ text ∧ ∀ c ∈ text, isSpace c = false := by
  rw [IsWord]
  refine and_congr_right fun _ => ?_
  simp only [isSeparator, Bool.or_eq_false_iff, beq_eq_false_iff_ne, forall_and]
  refine and_congr_left fun _ => ⟨fun differ underscore => differ '_' underscore rfl, ?_⟩
  rintro absent c member rfl
  exact absent member

namespace Phrase

/-- The words of running text are words in upper case. -/
theorem isWord_of_mem_upperWords {text : List Char} {word : String}
    (member : word ∈ upperWords text) : IsWord word.toList := by
  obtain ⟨_, isToken, rfl⟩ := List.mem_map.mp member
  obtain ⟨run, isRun, rfl⟩ := List.mem_map.mp isToken
  obtain ⟨nonempty, unseparated⟩ := of_mem_runs isRun
  rw [toList_upper, String.toList_ofList]
  refine ⟨fun empty => nonempty (upperChars_eq_nil_iff.mp empty), fun d inUpper => ?_⟩
  obtain ⟨c, inRun, inImage⟩ := List.mem_flatMap.mp inUpper
  rw [isSeparator_of_mem_upperChar inImage, unseparated c inRun]

/-- Running text leads along some texts in upper case exactly if they are words. -/
theorem exists_upperWords_eq_iff {texts : List (List Char)}
    (isUpper : ∀ text ∈ texts, IsUpperCase text) :
    (∃ running, upperWords running = texts.map String.ofList) ↔ ∀ text ∈ texts, IsWord text := by
  constructor
  · rintro ⟨running, same⟩ text member
    have isWord := isWord_of_mem_upperWords (same ▸ List.mem_map_of_mem member)
    rwa [String.toList_ofList] at isWord
  · intro areWords
    refine ⟨[' '].intercalate texts, ?_⟩
    rw [upperWords, splitWords_intercalate areWords, List.map_map]
    refine List.map_congr_left fun text member => ?_
    rw [Function.comp_apply, upper, String.toList_ofList, (isUpper text member).upperChars_eq]

end Phrase

namespace VerbState

/-! ### Paths that spell words -/

/-- Whether a path spells words of running text. -/
def SpellsWords (path : Path) : Prop :=
  ∀ word ∈ wordsOnPath path, IsWord word.toList

theorem mem_wordsOnPath_iff {path : Path} {word : String} :
    word ∈ wordsOnPath path ↔ ∃ step ∈ path, step.text? = some word := by
  have parts : word ∈ wordsOnPath path ↔
      word ∈ (path.takeWhile (· ≠ .boundary) ++ path.dropWhile (· ≠ .boundary)).filterMap
        Step.text? := by
    rw [wordsOnPath, List.filterMap_append, List.mem_append, List.mem_append, or_comm,
      List.filterMap_reverse, List.mem_reverse]
  rw [parts, List.takeWhile_append_dropWhile, List.mem_filterMap]

/-- Words that can be stored around a root, and the root itself. Only the root may hold a separator,
and it may be empty. -/
structure IsForm (before after : List (List Char)) (root : List Char) : Prop where
  isWord : ∀ word ∈ before ++ after, IsWord word
  isUpper : ∀ word ∈ before ++ root :: after, IsUpperCase word
  spaceless : ∀ c ∈ root, isSpace c = false

section IsForm

variable {before after : List (List Char)} {root : List Char}

theorem IsForm.spellsWords_iff (isForm : IsForm before after root) :
    SpellsWords (formAround before after root) ↔ IsWord root := by
  obtain ⟨beforeWords, afterWords⟩ := List.forall_mem_append.mp isForm.isWord
  rw [SpellsWords, wordsOnPath_formAround, List.forall_mem_map]
  simp only [String.toList_ofList, List.forall_mem_append, List.forall_mem_cons]
  exact ⟨fun spells => spells.2.1, fun isWord => ⟨beforeWords, isWord, afterWords⟩⟩

/-- Running text leads to a form exactly if the form is made of words. -/
theorem IsForm.exists_upperWords_iff (isForm : IsForm before after root) :
    (∃ running, Phrase.upperWords running = wordsOnPath (formAround before after root)) ↔
      SpellsWords (formAround before after root) := by
  rw [SpellsWords, wordsOnPath_formAround, List.forall_mem_map,
    Phrase.exists_upperWords_eq_iff isForm.isUpper]
  simp only [String.toList_ofList]

/-- No stored word holds white space. -/
theorem IsForm.not_isSpace (isForm : IsForm before after root) {word : String}
    (member : word ∈ wordsOnPath (formAround before after root)) :
    ∀ c ∈ word.toList, isSpace c = false := by
  have ofWord {text : List Char} (isWord : IsWord text) : ∀ c ∈ text, isSpace c = false :=
    (isWord_iff.mp isWord).2.2
  obtain ⟨beforeWords, afterWords⟩ := List.forall_mem_append.mp isForm.isWord
  rw [wordsOnPath_formAround] at member
  obtain ⟨text, isText, rfl⟩ := List.mem_map.mp member
  rw [String.toList_ofList]
  rcases List.mem_append.mp isText with isBefore | behind
  · exact ofWord (beforeWords text isBefore)
  · rcases List.mem_cons.mp behind with rfl | isAfter
    · exact isForm.spaceless
    · exact ofWord (afterWords text isAfter)

end IsForm

/-- The path of a single word is that of a form without other words. -/
theorem formPath_eq_formAround (word : List Char) :
    VerbDictionary.formPath (String.ofList word) = formAround [] [] word := rfl

/-! ### Words of a verb line -/

/-- A verb or a form as a verb line names it, in upper case. -/
structure IsNamed (text : List Char) : Prop where
  nonempty : text ≠ []
  isUpper : IsUpperCase text
  spaceless : ∀ c ∈ text, isSpace c = false

theorem isNamed_upperChars {text word : List Char} (member : word ∈ words text) :
    IsNamed (upperChars word) := by
  obtain ⟨nonempty, spaceless⟩ := of_mem_runs member
  refine ⟨fun empty => nonempty (upperChars_eq_nil_iff.mp empty), isUpperCase_upperChars word, ?_⟩
  intro d inUpper
  obtain ⟨c, inWord, inImage⟩ := List.mem_flatMap.mp inUpper
  rw [isSpace_of_mem_upperChar inImage, spaceless c inWord]

theorem WritesVerb.isNamed {body : List Char} {verbLine : VerbLine}
    (writes : WritesVerb body verbLine) :
    ∀ text ∈ verbLine.verb :: verbLine.forms.getD [], IsNamed text := by
  rw [List.forall_mem_cons]
  cases writes with
  | plain _ named =>
    refine ⟨isNamed_upperChars (named ▸ List.mem_cons_self), ?_⟩
    intro _ absent
    cases absent
  | listing _ _ named =>
    refine ⟨isNamed_upperChars (named ▸ List.mem_cons_self), ?_⟩
    intro form member
    obtain ⟨word, isWord, rfl⟩ := List.mem_map.mp member
    exact isNamed_upperChars isWord

theorem IsNamed.isWord_iff {text : List Char} (isNamed : IsNamed text) :
    IsWord text ↔ '_' ∉ text := by
  rw [Codebook.isWord_iff]
  exact ⟨fun isWord => isWord.2.1, fun absent => ⟨isNamed.nonempty, absent, isNamed.spaceless⟩⟩

theorem IsNamed.of_mem_runs {text word : List Char} (isNamed : IsNamed text)
    (member : word ∈ runs (· == '_') text) : IsNamed word ∧ IsWord word := by
  have within := mem_of_mem_runs member
  obtain ⟨nonempty, noUnderscore⟩ := Text.of_mem_runs member
  have isNamed : IsNamed word := ⟨nonempty, fun c inWord => isNamed.isUpper c (within inWord),
    fun c inWord => isNamed.spaceless c (within inWord)⟩
  refine ⟨isNamed, isNamed.isWord_iff.mpr fun underscore => ?_⟩
  simpa using noUnderscore '_' underscore

/-- What stands around the first mark of a surface, and what is marked. -/
theorem IsNamed.isForm {surface : List Char} (isNamed : IsNamed surface)
    {before after : List (List Char)} {root : List Char}
    (split : splitAtMark? (runs (· == '_') surface) = some (before, root, after)) :
    IsForm before after root ∧ '_' ∉ root := by
  obtain ⟨words, -⟩ := splitAtMark?_eq_some_iff.mp split
  have isRun : ∀ word ∈ before ++ ('+' :: root) :: after, IsNamed word ∧ IsWord word :=
    fun word member => isNamed.of_mem_runs (words ▸ member)
  simp only [List.forall_mem_append, List.forall_mem_cons] at isRun
  obtain ⟨beforeRuns, ⟨markedNamed, markedWord⟩, afterRuns⟩ := isRun
  have rootUpper : IsUpperCase root := fun c member =>
    markedNamed.isUpper c (List.mem_cons_of_mem _ member)
  refine ⟨⟨?_, ?_, fun c member => markedNamed.spaceless c (List.mem_cons_of_mem _ member)⟩, ?_⟩
  · rw [List.forall_mem_append]
    exact ⟨fun word member => (beforeRuns word member).2,
      fun word member => (afterRuns word member).2⟩
  · rw [List.forall_mem_append, List.forall_mem_cons]
    exact ⟨fun word member => (beforeRuns word member).1.isUpper, rootUpper,
      fun word member => (afterRuns word member).1.isUpper⟩
  · intro underscore
    exact markedNamed.isWord_iff.mp markedWord (List.mem_cons_of_mem _ underscore)

/-! ### Flaws -/

/-- Whether the first mark of a surface stands alone. -/
def HasBareMark (surface : List Char) : Prop :=
  ∃ before after, runs (· == '_') surface = before ++ ['+'] :: after ∧
    ∀ word ∈ before, word.head? ≠ some '+'

/-- Whether a verb line has a form whose root is not a word. A single-word verb may be a mark
without a word, or have a listed form with an underscore. The verb or a listed form of a multi-word
verb may mark nothing. -/
def Flawed (verbLine : VerbLine) : Prop :=
  if '_' ∈ verbLine.verb then
    ∃ surface ∈ verbLine.verb :: verbLine.forms.getD [], HasBareMark surface
  else (∀ c ∈ verbLine.verb, c = '+') ∨ ∃ form ∈ verbLine.forms.getD [], '_' ∈ form

theorem hasBareMark_iff {surface : List Char} :
    HasBareMark surface ↔
      ∃ before after, splitAtMark? (runs (· == '_') surface) = some (before, [], after) := by
  simp only [HasBareMark, splitAtMark?_eq_some_iff]

/-- The word after the first mark of a surface is a word unless it is empty. -/
theorem IsNamed.isWord_root_iff {surface : List Char} (isNamed : IsNamed surface)
    {before after : List (List Char)} {root : List Char}
    (split : splitAtMark? (runs (· == '_') surface) = some (before, root, after)) :
    IsWord root ↔ ¬ HasBareMark surface := by
  obtain ⟨isForm, noUnderscore⟩ := isNamed.isForm split
  rw [Codebook.isWord_iff, hasBareMark_iff, split]
  constructor
  · rintro ⟨nonempty, -⟩ ⟨_, _, bare⟩
    obtain ⟨-, rfl, -⟩ : before = _ ∧ root = [] ∧ after = _ := by simpa using bare
    exact nonempty rfl
  · intro marks
    refine ⟨?_, noUnderscore, isForm.spaceless⟩
    rintro rfl
    exact marks ⟨before, after, rfl⟩

theorem not_hasBareMark_of_unmarked {surface : List Char}
    (unmarked : splitAtMark? (runs (· == '_') surface) = none) : ¬ HasBareMark surface := by
  rw [hasBareMark_iff, unmarked]
  rintro ⟨_, _, found⟩
  cases found

/-- A surface is stored around its first mark, and its path spells words unless the mark stands
alone. -/
theorem IsNamed.multiWordPath?_cases {surface : List Char} (isNamed : IsNamed surface) :
    (multiWordPath? surface = none ∧ ¬ HasBareMark surface) ∨
      ∃ before after root, multiWordPath? surface = some (formAround before after root) ∧
        IsForm before after root ∧ (IsWord root ↔ ¬ HasBareMark surface) := by
  cases split : splitAtMark? (runs (· == '_') surface) with
  | none => exact .inl ⟨by rw [multiWordPath?, split]; rfl, not_hasBareMark_of_unmarked split⟩
  | some parts =>
    obtain ⟨before, root, after⟩ := parts
    obtain ⟨isForm, -⟩ := isNamed.isForm split
    refine .inr ⟨before, after, root, multiWordPath?_eq_some split ?_, isForm,
      isNamed.isWord_root_iff split⟩
    intro word member
    refine isForm.isUpper word ?_
    rw [List.mem_append] at member ⊢
    exact member.imp_right (List.mem_cons_of_mem _)

/-- A form that is generated for a root is a word, and stands where the root stands. -/
theorem IsForm.inflect {before after : List (List Char)} {root form : List Char}
    (isForm : IsForm before after root) (noUnderscore : '_' ∉ root)
    (member : form ∈ Inflection.verbForms root) : IsForm before after form ∧ IsWord form := by
  have upperForm : IsUpperCase form := Inflection.forall_mem_verbForms
    (isForm.isUpper root (by simp)) (fun _ => upperChar_of_isUpper) form member
  have spacelessForm : ∀ c ∈ form, isSpace c = false := Inflection.forall_mem_verbForms
    isForm.spaceless (fun _ => isSpace_of_isUpper) form member
  have absent : ∀ c ∈ form, c ≠ '_' := by
    refine Inflection.forall_mem_verbForms (fun c inRoot => ?_)
      (fun _ => Phrase.ne_underscore_of_isUpper) form member
    rintro rfl
    exact noUnderscore inRoot
  have others := isForm.isUpper
  rw [List.forall_mem_append, List.forall_mem_cons] at others
  refine ⟨⟨isForm.isWord, ?_, spacelessForm⟩, isWord_iff.mpr
    ⟨Inflection.ne_nil_of_mem_verbForms member, fun inForm => absent '_' inForm rfl, spacelessForm⟩⟩
  rw [List.forall_mem_append, List.forall_mem_cons]
  exact ⟨others.1, upperForm, others.2.2⟩

/-! ### Forms of a verb line -/

/-- Whether all paths are those of forms, and spell words exactly if something is not flawed. -/
structure SpellUnless (paths : List Path) (flawed : Prop) : Prop where
  exists_isForm : ∀ path ∈ paths, ∃ before after root, IsForm before after root ∧
    path = formAround before after root
  spell_iff : (∀ path ∈ paths, SpellsWords path) ↔ ¬ flawed

/-- Several roots are stored between the same words. -/
theorem spellUnless_map {before after roots : List (List Char)} {flawed : Prop}
    (areForms : ∀ root ∈ roots, IsForm before after root)
    (areWords : (∀ root ∈ roots, IsWord root) ↔ ¬ flawed) :
    SpellUnless (roots.map (formAround before after)) flawed where
  exists_isForm := by
    rw [List.forall_mem_map]
    exact fun root member => ⟨before, after, root, areForms root member, rfl⟩
  spell_iff := by
    rw [List.forall_mem_map, ← areWords]
    exact forall₂_congr fun root member => (areForms root member).spellsWords_iff

/-- Without an underscore in the verb, every form is stored as a single word. -/
theorem spellUnless_surfaces {verbLine : VerbLine}
    (isNamed : ∀ text ∈ verbLine.verb :: verbLine.forms.getD [], IsNamed text)
    (single : '_' ∉ verbLine.verb) :
    SpellUnless ((surfaces verbLine).map (formAround [] []))
      ((∀ c ∈ verbLine.verb, c = '+') ∨ ∃ form ∈ verbLine.forms.getD [], '_' ∈ form) := by
  obtain ⟨verbNamed, formsNamed⟩ := List.forall_mem_cons.mp isNamed
  have within : verbLine.verb.dropWhile (· == '+') ⊆ verbLine.verb :=
    (List.dropWhile_sublist _).subset
  have noUnderscore : '_' ∉ verbLine.verb.dropWhile (· == '+') :=
    fun underscore => single (within underscore)
  have rootForm : IsForm [] [] (verbLine.verb.dropWhile (· == '+')) := by
    refine ⟨by simp, ?_, fun c member => verbNamed.spaceless c (within member)⟩
    rw [List.nil_append, List.forall_mem_singleton]
    exact fun c member => verbNamed.isUpper c (within member)
  have rootWord : IsWord (verbLine.verb.dropWhile (· == '+')) ↔ ¬ ∀ c ∈ verbLine.verb, c = '+' := by
    rw [isWord_iff, ne_eq, List.dropWhile_eq_nil_iff]
    simp only [beq_iff_eq]
    exact and_iff_left ⟨noUnderscore, rootForm.spaceless⟩
  refine spellUnless_map ?_ ?_
  · rw [surfaces, List.forall_mem_cons]
    refine ⟨rootForm, ?_⟩
    cases listed : verbLine.forms with
    | none => exact fun form member => (rootForm.inflect noUnderscore member).1
    | some forms =>
      rw [listed, Option.getD_some] at formsNamed
      intro form member
      have named := formsNamed form member
      exact ⟨by simp, by simpa using named.isUpper, named.spaceless⟩
  · rw [surfaces, List.forall_mem_cons, rootWord, not_or]
    refine and_congr_right fun _ => ?_
    cases listed : verbLine.forms with
    | none =>
      have words : ∀ form ∈ Inflection.verbForms (verbLine.verb.dropWhile (· == '+')),
          IsWord form := fun form member => (rootForm.inflect noUnderscore member).2
      simpa using words
    | some forms =>
      rw [listed, Option.getD_some] at formsNamed
      rw [Option.getD_some, Option.getD_some, not_exists]
      simp only [not_and]
      exact forall₂_congr fun form member => (formsNamed form member).isWord_iff

/-- The surfaces that are listed for a multi-word verb, and the verb itself, are stored around their
marks. -/
theorem spellUnless_multiWordPaths {surfaces : List (List Char)}
    (isNamed : ∀ surface ∈ surfaces, IsNamed surface) :
    SpellUnless (surfaces.filterMap multiWordPath?)
      (∃ surface ∈ surfaces, HasBareMark surface) where
  exists_isForm := by
    intro path member
    obtain ⟨surface, isSurface, found⟩ := List.mem_filterMap.mp member
    rcases (isNamed surface isSurface).multiWordPath?_cases with
      ⟨unmarked, -⟩ | ⟨before, after, root, stored, isForm, -⟩
    · rw [unmarked] at found
      cases found
    · exact ⟨before, after, root, isForm, Option.some.inj (found.symm.trans stored)⟩
  spell_iff := by
    have each : ∀ surface ∈ surfaces, (∀ path, multiWordPath? surface = some path →
        SpellsWords path) ↔ ¬ HasBareMark surface := by
      intro surface isSurface
      rcases (isNamed surface isSurface).multiWordPath?_cases with
        ⟨unmarked, notBare⟩ | ⟨before, after, root, stored, isForm, isWord⟩
      · simp [unmarked, notBare]
      · simp [stored, isForm.spellsWords_iff, isWord]
    simp only [List.mem_filterMap, forall_exists_index, and_imp, not_exists, not_and]
    constructor
    · intro spell surface isSurface
      exact (each surface isSurface).mp fun path => spell path surface isSurface
    · intro noneBare path surface isSurface
      exact (each surface isSurface).mpr (noneBare surface isSurface) path

/-- The forms that are generated for the marked word of a verb stand between its other words. -/
theorem spellUnless_generated {verbLine : VerbLine} (isNamed : IsNamed verbLine.verb)
    (generated : verbLine.forms = none) (multiWord : '_' ∈ verbLine.verb) :
    SpellUnless (formPaths verbLine) (HasBareMark verbLine.verb) := by
  cases split : splitAtMark? (runs (· == '_') verbLine.verb) with
  | none =>
    have noSplit : splitAtMark? (pieces (· == '_') verbLine.verb) = none := by
      rw [runs, splitAtMark?_filter _ (fun _ => rfl), Option.map_eq_none_iff] at split
      exact split
    have noPaths : formPaths verbLine = [] := by
      rw [formPaths, if_pos (by simpa using multiWord), multiWordSurfaces, generated]
      dsimp only
      rw [noSplit]
    rw [noPaths]
    exact ⟨by simp, by simpa using not_hasBareMark_of_unmarked split⟩
  | some parts =>
    obtain ⟨before, root, after⟩ := parts
    obtain ⟨words, unmarked⟩ := splitAtMark?_eq_some_iff.mp split
    obtain ⟨isForm, noUnderscore⟩ := isNamed.isForm split
    have inflects : Inflects verbLine before root after := ⟨generated, multiWord, words, unmarked⟩
    have inflections : ∀ form ∈ Inflection.verbForms root,
        IsForm before after form ∧ IsWord form :=
      fun form member => isForm.inflect noUnderscore member
    rw [(inflects.formPaths_eq isNamed.isUpper).1]
    refine spellUnless_map ?_ ?_
    · rw [List.forall_mem_cons]
      exact ⟨isForm, fun form member => (inflections form member).1⟩
    · rw [List.forall_mem_cons, isNamed.isWord_root_iff split]
      exact and_iff_left fun form member => (inflections form member).2

/-- The paths of a verb line are those of forms, and they spell words exactly if the line has no
flaw. -/
theorem spellUnless_formPaths {body : List Char} {verbLine : VerbLine}
    (writes : WritesVerb body verbLine) : SpellUnless (formPaths verbLine) (Flawed verbLine) := by
  have isNamed := writes.isNamed
  by_cases multiWord : '_' ∈ verbLine.verb
  · rw [Flawed, if_pos multiWord]
    cases listed : verbLine.forms with
    | some forms =>
      have surfaces : multiWordSurfaces verbLine = .ok (verbLine.verb :: forms) := by
        rw [multiWordSurfaces, listed]
      rw [listed] at isNamed
      rw [formPaths, if_pos (by simpa using multiWord), surfaces]
      exact spellUnless_multiWordPaths isNamed
    | none =>
      have bareVerb : (∃ surface ∈ verbLine.verb :: Option.getD none [], HasBareMark surface) =
          HasBareMark verbLine.verb := by
        simp
      rw [bareVerb]
      exact spellUnless_generated (isNamed _ List.mem_cons_self) listed multiWord
  · rw [formPaths, if_neg (by simpa using multiWord), Flawed, if_neg multiWord]
    simp only [formPath_eq_formAround]
    exact spellUnless_surfaces isNamed multiWord

end VerbState

/-! ### Stored forms -/

namespace VerbDictionary

open VerbState

variable {script : Script}

/-- Whether a path is that of a form of some verb line that can be read. -/
def IsFormPath (script : Script) (path : Path) : Prop :=
  ∃ above line below verbLine, script.lines = above ++ line :: below ∧
    (start.run above).verbLine? line = some verbLine ∧ path ∈ formPaths verbLine

/-- Forms are added on these paths. -/
theorem isFormPath_iff {path : Path} :
    IsFormPath script path ↔
      ∃ form, (path, form) ∈ (start.trace formsAdded script.lines).flatten := by
  constructor
  · rintro ⟨above, line, below, verbLine, here, isVerb, isPath⟩
    obtain ⟨text, code?, item, writes⟩ := verbLine?_eq_some_iff.mp isVerb
    have added := mem_formsAdded_iff.mpr ⟨text, code?, verbLine, item, writes, isPath, rfl⟩
    exact ⟨_, List.mem_flatten.mpr ⟨_, mem_trace.mpr ⟨above, line, below, here, rfl⟩, added⟩⟩
  · rintro ⟨form, member⟩
    obtain ⟨_, seen, added⟩ := List.mem_flatten.mp member
    obtain ⟨above, line, below, here, rfl⟩ := mem_trace.mp seen
    obtain ⟨text, code?, verbLine, item, writes, isPath, -⟩ := mem_formsAdded_iff.mp added
    exact ⟨above, line, below, verbLine, here,
      verbLine?_eq_some_iff.mpr ⟨text, code?, item, writes⟩, isPath⟩

/-- The words between the nodes are those on the paths of forms. -/
theorem exists_child?_word_iff (file : String) {word : String} :
    (∃ node step next, (compile file script).dictionary.forms.child? node step = some next ∧
        step.text? = some word) ↔ ∃ path, IsFormPath script path ∧ word ∈ wordsOnPath path := by
  simp only [isFormPath_iff, mem_wordsOnPath_iff]
  rw [forms_compile, Trie.exists_child?_with_iff]
  constructor
  · rintro ⟨⟨path, form⟩, added, step, onPath, isText⟩
    rcases List.mem_append.mp onPath with inside | isEnd
    · exact ⟨path, ⟨form, added⟩, step, inside, isText⟩
    · rw [List.mem_singleton.mp isEnd] at isText
      cases isText
  · rintro ⟨path, ⟨form, added⟩, step, inside, isText⟩
    exact ⟨(path, form), added, step, List.mem_append_left _ inside, isText⟩

theorem IsFormPath.exists_isForm {path : Path} (isPath : IsFormPath script path) :
    ∃ before after root, IsForm before after root ∧ path = formAround before after root := by
  obtain ⟨above, line, below, verbLine, -, isVerb, member⟩ := isPath
  obtain ⟨text, code?, -, writes⟩ := verbLine?_eq_some_iff.mp isVerb
  exact (spellUnless_formPaths writes).exists_isForm path member

/-- All forms consist of words exactly if no verb line is flawed. -/
theorem forall_spellsWords_iff :
    (∀ path, IsFormPath script path → SpellsWords path) ↔
      ∀ above line below verbLine, script.lines = above ++ line :: below →
        (start.run above).verbLine? line = some verbLine → ¬ Flawed verbLine := by
  constructor
  · intro spell above line below verbLine here isVerb
    obtain ⟨text, code?, -, writes⟩ := verbLine?_eq_some_iff.mp isVerb
    refine (spellUnless_formPaths writes).spell_iff.mp fun path member => ?_
    exact spell path ⟨above, line, below, verbLine, here, isVerb, member⟩
  · rintro noneFlawed path ⟨above, line, below, verbLine, here, isVerb, member⟩
    obtain ⟨text, code?, -, writes⟩ := verbLine?_eq_some_iff.mp isVerb
    have notFlawed := noneFlawed above line below verbLine here isVerb
    exact (spellUnless_formPaths writes).spell_iff.mpr notFlawed path member

/-- No stored word holds white space. All of them are words exactly if no verb line is flawed, and
running text leads along a stored form exactly if the form consists of words. -/
theorem forms_are_words_iff (file : String) (script : Script) :
    let forms := (compile file script).dictionary.forms
    (∀ node step next word, forms.child? node step = some next → step.text? = some word →
        ∀ c ∈ word.toList, isSpace c = false) ∧
      ((∀ node step next word, forms.child? node step = some next → step.text? = some word →
          word.toList ≠ [] ∧ '_' ∉ word.toList ∧ ∀ c ∈ word.toList, isSpace c = false) ↔
        ∀ above line below verbLine, script.lines = above ++ line :: below →
          (start.run above).verbLine? line = some verbLine → ¬ Flawed verbLine) ∧
      ∀ path, forms.find path ≠ [] →
        ((∃ running, Phrase.upperWords running = wordsOnPath path) ↔ SpellsWords path) := by
  intro forms
  refine ⟨?_, ?_, ?_⟩
  · intro node step next word isChild isText
    obtain ⟨path, isPath, member⟩ :=
      (exists_child?_word_iff file).mp ⟨node, step, next, isChild, isText⟩
    obtain ⟨before, after, root, isForm, rfl⟩ := isPath.exists_isForm
    exact isForm.not_isSpace member
  · rw [← forall_spellsWords_iff]
    constructor
    · intro allWords path isPath word member
      obtain ⟨node, step, next, isChild, isText⟩ :=
        (exists_child?_word_iff file).mpr ⟨path, isPath, member⟩
      exact isWord_iff.mpr (allWords node step next word isChild isText)
    · intro spell node step next word isChild isText
      obtain ⟨path, isPath, member⟩ :=
        (exists_child?_word_iff file).mp ⟨node, step, next, isChild, isText⟩
      exact isWord_iff.mp (spell path isPath word member)
  · intro path stored
    obtain ⟨form, found⟩ := List.exists_mem_of_ne_nil _ stored
    rw [show forms = _ from forms_compile file script, Trie.mem_find_insertAll] at found
    obtain ⟨before, after, root, isForm, rfl⟩ := (isFormPath_iff.mpr ⟨form, found⟩).exists_isForm
    exact isForm.exists_upperWords_iff

/-- A verb of one word with a form of two. -/
def gaveUpScript : Script :=
  Script.ofLines (PhysicalLine.linesOfText "--- GIVE [070]\nGIVE \x7bGAVE_UP\x7d\n".toList)

/-- The form is stored as if it were one word, but no running text leads to it. -/
theorem gaveUp_is_no_word :
    (¬ ∀ node step next word,
        (compile "verbs" gaveUpScript).dictionary.forms.child? node step = some next →
          step.text? = some word →
            word.toList ≠ [] ∧ '_' ∉ word.toList ∧ ∀ c ∈ word.toList, isSpace c = false) ∧
      (compile "verbs" gaveUpScript).dictionary.forms.find (formPath "GAVE_UP") =
        [⟨"GIVE", "070", 2⟩] ∧
      ∀ running, "GAVE_UP" ∉ Phrase.upperWords running := by
  have underscore : '_' ∈ "GAVE_UP".toList := by decide
  refine ⟨fun allWords => ?_, by decide +kernel, fun running member => ?_⟩
  · have stored : ((compile "verbs" gaveUpScript).dictionary.forms.child? 0
        (.root "GAVE_UP")).isSome := by
      decide +kernel
    obtain ⟨next, isChild⟩ := Option.isSome_iff_exists.mp stored
    exact (allWords 0 (.root "GAVE_UP") next "GAVE_UP" isChild rfl).2.1 underscore
  · exact (isWord_iff.mp (Phrase.isWord_of_mem_upperWords member)).2.1 underscore

end VerbDictionary

end Codebook
