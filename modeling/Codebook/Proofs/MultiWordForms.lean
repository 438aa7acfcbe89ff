/-
This file says what is stored for a multi-word verb whose forms are not listed. The verb is taken
apart at its underscores, its marked word is inflected, and each form is put together again and
taken apart once more. Main statement: no word gets lost on the way, so the words of every stored
form are those of the verb with the form in the place of the marked word, and two verbs share the
path of their base form only if they have the same words and mark the same one
(`VerbDictionary.multiWord_keeps_words`).
-/

import Codebook.Proofs.InflectedWords
import Codebook.Proofs.VerbLines

namespace Codebook

open Text

namespace VerbState

/-! ### Paths around a root -/

/-- The step for a word that stands right beside another one. -/
def adjacentStep (word : List Char) : Step :=
  .word (String.ofList word) .adjacent

/-- The path of a multi-word form: the word that inflects, the words after it, a boundary, and the
words before it from right to left. -/
def formAround (before after : List (List Char)) (form : List Char) : Path :=
  (.root (String.ofList form) :: after.map adjacentStep) ++
    .boundary :: before.reverse.map adjacentStep

/-- The words of a form in reading order, read off its path. -/
def wordsOnPath (path : Path) : List String :=
  (path.dropWhile (· ≠ .boundary)).reverse.filterMap Step.text? ++
    (path.takeWhile (· ≠ .boundary)).filterMap Step.text?

theorem boundary_notMem_words (words : List (List Char)) :
    Step.boundary ∉ words.map adjacentStep := by
  simp [adjacentStep]

theorem texts_adjacentStep (words : List (List Char)) :
    (words.map adjacentStep).filterMap Step.text? = words.map String.ofList := by
  rw [List.filterMap_map]
  exact congrFun List.filterMap_eq_map words

/-- No word is lost on the path of a form. -/
theorem wordsOnPath_formAround (before after : List (List Char)) (form : List Char) :
    wordsOnPath (formAround before after form) = (before ++ form :: after).map String.ofList := by
  have noBoundary : ∀ step ∈ Step.root (String.ofList form) :: after.map adjacentStep,
      decide (step ≠ .boundary) = true := by
    intro step member
    rw [decide_eq_true_eq]
    rintro rfl
    rcases List.mem_cons.mp member with same | inAfter
    · cases same
    · exact boundary_notMem_words after inAfter
  unfold wordsOnPath formAround
  rw [List.dropWhile_append_of_pos noBoundary, List.takeWhile_append_of_pos noBoundary]
  simp [← List.map_reverse, texts_adjacentStep, Step.text?, -List.filterMap_map]

theorem adjacentStep_injective : Function.Injective adjacentStep := by
  intro word other same
  obtain ⟨-, sameText, -⟩ := Step.token.inj same
  exact String.ofList_injective sameText

/-- The path of a form tells the words after its root from those before it. -/
theorem formAround_inj {before after before' after' : List (List Char)} {form form' : List Char} :
    formAround before after form = formAround before' after' form' ↔
      form = form' ∧ after = after' ∧ before = before' := by
  have sameRoot : Step.root (String.ofList form) = Step.root (String.ofList form') ↔
      form = form' := by
    simp [String.ofList_inj]
  unfold formAround
  rw [List.cons_append, List.cons_append, List.cons.injEq, sameRoot,
    List.append_cons_inj_of_notMem (boundary_notMem_words after)
      (boundary_notMem_words before.reverse), adjacentStep_injective.list_map.eq_iff,
    adjacentStep_injective.list_map.eq_iff, List.reverse_inj, eq_self_iff_true, true_and]

/-- The words of a surface in upper case are stored as they are. -/
theorem multiWordPath?_eq_some {surface root : List Char} {before after : List (List Char)}
    (split : splitAtMark? (runs (· == '_') surface) = some (before, root, after))
    (isUpper : ∀ word ∈ before ++ after, IsUpperCase word) :
    multiWordPath? surface = some (formAround before after root) := by
  have steps {words : List (List Char)} (within : words ⊆ before ++ after) :
      (words.map fun word => Phrase.literal (String.ofList word) .adjacent) =
        words.map adjacentStep := by
    refine List.map_congr_left fun word member => ?_
    rw [Phrase.literal, upper, String.toList_ofList, (isUpper word (within member)).upperChars_eq]
    rfl
  unfold multiWordPath? formAround
  rw [split, Option.map_some, List.map_reverse, ← steps (List.subset_append_left before after),
    ← steps (List.subset_append_right before after)]
  simp

/-! ### Generated forms of a multi-word verb -/

/-- A multi-word verb whose forms are generated, taken apart at its first marked word. -/
structure Inflects (verbLine : VerbLine) (before : List (List Char)) (root : List Char)
    (after : List (List Char)) : Prop where
  generated : verbLine.forms = none
  multiWord : '_' ∈ verbLine.verb
  words : runs (· == '_') verbLine.verb = before ++ ('+' :: root) :: after
  unmarked : ∀ word ∈ before, word.head? ≠ some '+'

theorem exists_inflects {verbLine : VerbLine} (generated : verbLine.forms = none)
    (multiWord : '_' ∈ verbLine.verb)
    (marked : ∃ word ∈ runs (· == '_') verbLine.verb, word.head? = some '+') :
    ∃ before root after, Inflects verbLine before root after := by
  obtain ⟨⟨before, root, after⟩, split⟩ :=
    Option.isSome_iff_exists.mp (isSome_splitAtMark?_iff.mpr marked)
  obtain ⟨words, unmarked⟩ := splitAtMark?_eq_some_iff.mp split
  exact ⟨before, root, after, generated, multiWord, words, unmarked⟩

/-- Words that are left out before the split are missing behind it, unless they are marked. -/
theorem splitAtMark?_filter (keep : List Char → Bool) (marked : ∀ root, keep ('+' :: root))
    (words : List (List Char)) :
    splitAtMark? (words.filter keep) = (splitAtMark? words).map fun (before, root, after) =>
      (before.filter keep, root, after.filter keep) := by
  fun_induction splitAtMark? words with
  | case1 => rfl
  | case2 root rest =>
    rw [List.filter_cons_of_pos (marked root)]
    rfl
  | case3 word rest unmarked inductionHypothesis =>
    cases kept : keep word with
    | false =>
      rw [List.filter_cons_of_neg (by simp [kept]), inductionHypothesis]
      simp [Option.map_map, Function.comp_def, kept]
    | true =>
      rw [List.filter_cons_of_pos kept, splitAtMark?.eq_3 _ _ unmarked, inductionHypothesis]
      simp [Option.map_map, Function.comp_def, kept]

/-- A form that takes the place of the marked word stands between the same words. Empty words count
no more in the form than they do in the verb. -/
theorem splitAtMark?_runs_intercalate {before after : List (List Char)} {root form : List Char}
    (noUnderscore : ∀ word ∈ before ++ ('+' :: root) :: after, ∀ c ∈ word, (c == '_') = false)
    (formNoUnderscore : ∀ c ∈ form, (c == '_') = false)
    (unmarked : ∀ word ∈ before, word.head? ≠ some '+') :
    splitAtMark? (runs (· == '_') (['_'].intercalate (before ++ ('+' :: form) :: after))) =
      some (before.filter (!·.isEmpty), form, after.filter (!·.isEmpty)) := by
  have parts : pieces (· == '_') (['_'].intercalate (before ++ ('+' :: form) :: after)) =
      before ++ ('+' :: form) :: after := by
    have nonempty : before ++ ('+' :: form) :: after ≠ [] := by simp
    refine pieces_intercalate (by decide) nonempty ?_
    rw [List.forall_mem_append, List.forall_mem_cons] at noUnderscore ⊢
    obtain ⟨inBefore, -, inAfter⟩ := noUnderscore
    exact ⟨inBefore, List.forall_mem_cons.mpr ⟨by decide, formNoUnderscore⟩, inAfter⟩
  rw [runs, parts, splitAtMark?_filter _ (fun _ => rfl),
    splitAtMark?_eq_some_iff.mpr ⟨rfl, unmarked⟩]
  rfl

/-- The surfaces of a verb whose forms are generated: the forms of its marked word, each in the
place of that word. -/
theorem multiWordSurfaces_of_split {verbLine : VerbLine} (generated : verbLine.forms = none)
    {before after : List (List Char)} {root : List Char}
    (split : splitAtMark? (pieces (· == '_') verbLine.verb) = some (before, root, after)) :
    multiWordSurfaces verbLine = .ok ((root :: Inflection.verbForms root).map fun form =>
      ['_'].intercalate (before ++ ('+' :: form) :: after)) := by
  have base : ['_'].intercalate (before ++ ('+' :: root) :: after) = verbLine.verb := by
    rw [← (splitAtMark?_eq_some_iff.mp split).1, intercalate_pieces]
  rw [List.map_cons, base, multiWordSurfaces, generated]
  dsimp only
  rw [split]

/-- A verb whose marked word inflects is not refused, and each form of that word is stored between
the other words. -/
theorem Inflects.formPaths_eq {verbLine : VerbLine} {before after : List (List Char)}
    {root : List Char} (inflects : Inflects verbLine before root after)
    (isUpper : IsUpperCase verbLine.verb) :
    formPaths verbLine = (root :: Inflection.verbForms root).map (formAround before after) ∧
      refusal? verbLine = none := by
  obtain ⟨generated, multiWord, words, unmarked⟩ := inflects
  have split : splitAtMark? (runs (· == '_') verbLine.verb) = some (before, root, after) :=
    splitAtMark?_eq_some_iff.mpr ⟨words, unmarked⟩
  -- the words with the empty ones among them, as the forms are put together from them
  obtain ⟨⟨front, middle, back⟩, fullSplit, same⟩ := Option.map_eq_some_iff.mp
    ((splitAtMark?_filter _ (fun _ => rfl) (pieces (· == '_') verbLine.verb)).symm.trans split)
  obtain ⟨rfl, rfl, rfl⟩ : front.filter (!·.isEmpty) = before ∧ middle = root ∧
      back.filter (!·.isEmpty) = after := by
    simpa using same
  obtain ⟨parts, frontUnmarked⟩ := splitAtMark?_eq_some_iff.mp fullSplit
  have noUnderscore : ∀ word ∈ front ++ ('+' :: middle) :: back, ∀ c ∈ word, (c == '_') = false :=
    fun word member => not_sep_of_mem_pieces (parts ▸ member)
  have rootNoUnderscore : ∀ c ∈ middle, (c == '_') = false := fun c member =>
    noUnderscore ('+' :: middle) (by simp) c (List.mem_cons_of_mem _ member)
  have pathOf : ∀ form ∈ middle :: Inflection.verbForms middle,
      multiWordPath? (['_'].intercalate (front ++ ('+' :: form) :: back)) =
        some (formAround (front.filter (!·.isEmpty)) (back.filter (!·.isEmpty)) form) := by
    intro form member
    have inflected : ∀ form ∈ Inflection.verbForms middle, ∀ c ∈ form, (c == '_') = false :=
      Inflection.forall_mem_verbForms rootNoUnderscore fun c isCapital =>
        beq_eq_false_iff_ne.mpr (Phrase.ne_underscore_of_isUpper isCapital)
    have formNoUnderscore : ∀ c ∈ form, (c == '_') = false :=
      List.forall_mem_cons.mpr ⟨rootNoUnderscore, inflected⟩ form member
    refine multiWordPath?_eq_some
      (splitAtMark?_runs_intercalate noUnderscore formNoUnderscore frontUnmarked) ?_
    intro word beside c inWord
    have isWord : word ∈ runs (· == '_') verbLine.verb := by
      rw [words, List.mem_append]
      exact (List.mem_append.mp beside).imp_right (List.mem_cons_of_mem _)
    exact isUpper c (mem_of_mem_runs isWord inWord)
  have surfaces := multiWordSurfaces_of_split generated fullSplit
  have isMultiWord : verbLine.verb.contains '_' = true := by simpa using multiWord
  constructor
  · rw [formPaths, if_pos isMultiWord, surfaces]
    dsimp only
    rw [List.filterMap_map]
    exact (List.filterMap_congr pathOf).trans (congrFun List.filterMap_eq_map _)
  · have marked : (((middle :: Inflection.verbForms middle).map fun form =>
        ['_'].intercalate (front ++ ('+' :: form) :: back)).filter fun surface =>
          (multiWordPath? surface).isNone) = [] := by
      rw [List.filter_eq_nil_iff, List.forall_mem_map]
      intro form member
      rw [pathOf form member]
      exact Bool.false_ne_true
    rw [refusal?, if_pos isMultiWord, surfaces]
    dsimp only
    rw [marked]
    rfl

/-! ### What a verb line stores -/

/-- A verb line that can be read leads to the state in which its forms are added, and is refused for
its marks only. -/
theorem handle_of_verbLine? {state : VerbState} {line : Line} {verbLine : VerbLine}
    (isVerb : state.verbLine? line = some verbLine) :
    (∃ body, WritesVerb body verbLine) ∧ (state.handle line).2 = refusal? verbLine ∧
      ∃ entry : VerbEntry, entry.line = line.number ∧
        state.formsAdded line = (formPaths verbLine).map (·, entry) := by
  obtain ⟨text, code?, item, writes⟩ := verbLine?_eq_some_iff.mp isVerb
  have read := readVerbLine_eq_ok_iff.mpr writes
  refine ⟨⟨text, writes⟩, ?_, ?_⟩
  · rw [handle, item]
    dsimp only
    rw [addVerb_of_read _ read]
  · unfold formsAdded
    rw [item]
    dsimp only
    rw [read]
    exact ⟨_, rfl, rfl⟩

/-- The verb of a line is in upper case. -/
theorem WritesVerb.isUpperCase {body : List Char} {verbLine : VerbLine}
    (writes : WritesVerb body verbLine) : IsUpperCase verbLine.verb := by
  cases writes with
  | plain => exact isUpperCase_upperChars _
  | listing => exact isUpperCase_upperChars _

end VerbState

/-! ### Stored forms of multi-word verbs -/

/-- What several phrases with the same payload and different paths add to a path. -/
theorem Trie.WellFormed.find_insertAll_map {Payload : Type} {trie : Trie Payload}
    (shape : trie.WellFormed) {paths : List Path} (nodup : paths.Nodup) (payload : Payload)
    (path : Path) :
    (trie.insertAll (paths.map (·, payload))).find path =
      trie.find path ++ if path ∈ paths then [payload] else [] := by
  have onPath : (paths.map (·, payload)).filter (fun phrase => phrase.1 = path) =
      (paths.filter (· = path)).map (·, payload) := List.filter_map
  rw [shape.find_insertAll, onPath, List.filter_eq]
  split
  next member =>
    rw [List.count_eq_one_of_mem nodup member]
    rfl
  next absent =>
    rw [List.count_eq_zero_of_not_mem absent]
    rfl

namespace VerbDictionary

open VerbState

/-- A multi-word verb with a marked word, whose forms are not listed, is accepted. Four entries are
stored for it, for the root and each of its inflections. The words of each entry are those of the
verb, with the form in the place of the first marked word. Two such verbs share the path of their
base form exactly if they have the same words and the same one of them is the root. -/
theorem multiWord_keeps_words (file : String) {script : Script} {above below : List Line}
    {line : Line} {verbLine : VerbLine} (here : script.lines = above ++ line :: below)
    (isVerb : (start.run above).verbLine? line = some verbLine)
    (generated : verbLine.forms = none) (multiWord : '_' ∈ verbLine.verb)
    (marked : ∃ word ∈ runs (· == '_') verbLine.verb, word.head? = some '+') :
    ((start.run above).handle line).2 = none ∧
      ∃ before root after, Inflects verbLine before root after ∧
        (let paths := (root :: Inflection.verbForms root).map (formAround before after)
         paths.length = 4 ∧ paths.Nodup ∧ ∃ entry : VerbEntry, entry.line = line.number ∧
           (∀ path, (start.run (above ++ [line])).dictionary.forms.find path =
             (start.run above).dictionary.forms.find path ++
               if path ∈ paths then [entry] else []) ∧
           ∀ path ∈ paths, entry ∈ (compile file script).dictionary.forms.find path) ∧
        (∀ form, wordsOnPath (formAround before after form) =
          (before ++ form :: after).map String.ofList) ∧
        ∀ other before' root' after', Inflects other before' root' after' →
          (formAround before after root = formAround before' after' root' ↔
            runs (· == '_') verbLine.verb = runs (· == '_') other.verb ∧
              before.length = before'.length) := by
  obtain ⟨⟨body, writes⟩, answer, entry, number, added⟩ := handle_of_verbLine? isVerb
  obtain ⟨before, root, after, inflects⟩ := exists_inflects generated multiWord marked
  obtain ⟨paths, accepted⟩ := inflects.formPaths_eq writes.isUpperCase
  rw [paths] at added
  have nodup : ((root :: Inflection.verbForms root).map (formAround before after)).Nodup := by
    refine (Inflection.nodup_verbForms root).map fun form other same => ?_
    exact (formAround_inj.mp same).1
  have shape : (start.run above).dictionary.forms.WellFormed := by
    rw [trie_run (·.dictionary.forms) formsAdded (fun _ _ => by rw [fst_handle]) start above]
    exact Trie.wellFormed_empty.insertAll _
  refine ⟨answer.trans accepted, before, root, after, inflects, ⟨rfl, nodup, entry, number, ?_, ?_⟩,
    wordsOnPath_formAround before after, ?_⟩
  · intro path
    rw [run_append, run_cons, run_nil, fst_handle, added]
    dsimp only
    rw [shape.find_insertAll_map nodup]
  · intro path member
    rw [forms_compile, Trie.mem_find_insertAll]
    refine List.mem_flatten.mpr ⟨_, mem_trace.mpr ⟨above, line, below, here, rfl⟩, ?_⟩
    rw [added]
    exact List.mem_map_of_mem member
  · intro other before' root' after' otherInflects
    rw [formAround_inj, inflects.words, otherInflects.words]
    constructor
    · rintro ⟨rfl, rfl, rfl⟩
      exact ⟨rfl, rfl⟩
    · rintro ⟨sameWords, sameLength⟩
      obtain ⟨rfl, rest⟩ := List.append_inj sameWords sameLength
      obtain ⟨sameRoot, rfl⟩ := List.cons.inj rest
      exact ⟨(List.cons.inj sameRoot).2, rfl, rfl⟩

/-- A verb with an empty word, a second mark and an underscore at its end. -/
def listenScript : Script where
  lines := List.mapIdx (fun index text => ⟨index + 1, text.toList⟩)
    ["--- LISTEN [010]", "wire__+tap_+off_"]
  failedAfter := none

/-- The words beside the root are kept, also the second marked one, and nothing is stored for the
empty words. -/
theorem tap_keeps_words :
    ∃ entry : VerbEntry, entry.line = 2 ∧ ∀ form ∈ ["TAP", "TAPS", "TAPED", "TAPING"],
      let path : Path :=
        [.root form, .word "+OFF" .adjacent, .boundary, .word "WIRE" .adjacent]
      wordsOnPath path = ["WIRE", form, "+OFF"] ∧
        entry ∈ (compile "verbs" listenScript).dictionary.forms.find path := by
  have here : listenScript.lines =
      [⟨1, "--- LISTEN [010]".toList⟩] ++ ⟨2, "wire__+tap_+off_".toList⟩ :: [] := rfl
  have isVerb : (start.run [⟨1, "--- LISTEN [010]".toList⟩]).verbLine?
      ⟨2, "wire__+tap_+off_".toList⟩ = some ⟨"WIRE__+TAP_+OFF_".toList, none⟩ := by
    decide +kernel
  obtain ⟨-, before, root, after, inflects, ⟨-, -, entry, number, -, found⟩, words, -⟩ :=
    multiWord_keeps_words "verbs" here isVerb rfl (by decide) (by decide)
  have split : splitAtMark? (runs (· == '_') "WIRE__+TAP_+OFF_".toList) =
      some (["WIRE".toList], "TAP".toList, ["+OFF".toList]) := by
    decide
  rw [splitAtMark?_eq_some_iff.mpr ⟨inflects.words, inflects.unmarked⟩] at split
  obtain ⟨rfl, rfl, rfl⟩ : before = ["WIRE".toList] ∧ root = "TAP".toList ∧
      after = ["+OFF".toList] := by
    simpa using split
  refine ⟨entry, number, fun form member => ?_⟩
  have areForms : ∀ form ∈ ["TAP", "TAPS", "TAPED", "TAPING"],
      form.toList ∈ "TAP".toList :: Inflection.verbForms "TAP".toList := by
    decide
  intro path
  have isPath : path = formAround ["WIRE".toList] ["+OFF".toList] form.toList := by
    simp [path, formAround, adjacentStep]
  rw [isPath, words]
  exact ⟨by simp, found _ (List.mem_map_of_mem (areForms form member))⟩

end VerbDictionary

end Codebook
