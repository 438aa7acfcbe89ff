/-
This file says what inflection does to words. An ending consists of capitals, so what holds of
capitals and of the characters of a word holds of its inflected forms. Main statements: the forms of
a verb differ from each other and from its root (`Inflection.nodup_verbForms`), and the plural of a
phrase has the last of its words in the plural (`Inflection.splitWords_synsetPlural`).
-/

import Codebook.Inflection
import Codebook.Proofs.WordRuns
import Mathlib.Data.List.Nodup

namespace Codebook.Inflection

open Text

theorem forall_mem_inflected {Holds : Char → Prop} {stem ending : List Char}
    (ofStem : ∀ c ∈ stem, Holds c) (ofCapital : ∀ c : Char, c.isUpper → Holds c)
    (capitals : ending.all Char.isUpper) : ∀ c ∈ stem ++ ending, Holds c := by
  rw [List.forall_mem_append]
  exact ⟨ofStem, fun c member => ofCapital c (List.all_eq_true.mp capitals c member)⟩

/-! ### Forms of verbs -/

/-- The forms of a verb are made of the characters of its root and of capitals. -/
theorem forall_mem_verbForms {Holds : Char → Prop} {root : List Char}
    (ofRoot : ∀ c ∈ root, Holds c) (ofCapital : ∀ c : Char, c.isUpper → Holds c) :
    ∀ form ∈ verbForms root, ∀ c ∈ form, Holds c := by
  rw [verbForms, List.forall_mem_cons, List.forall_mem_cons, List.forall_mem_singleton]
  refine ⟨?_, ?_, forall_mem_inflected ?_ ofCapital rfl⟩
  · unfold thirdPerson
    split
    · exact forall_mem_inflected ofRoot ofCapital rfl
    · exact forall_mem_inflected ofRoot ofCapital rfl
  · unfold past
    split
    · exact forall_mem_inflected ofRoot ofCapital rfl
    · exact forall_mem_inflected ofRoot ofCapital rfl
  · split
    · exact fun c member => ofRoot c (List.dropLast_subset root member)
    · exact ofRoot

theorem ne_nil_of_mem_verbForms {root form : List Char} (member : form ∈ verbForms root) :
    form ≠ [] := by
  revert form
  rw [verbForms, List.forall_mem_cons, List.forall_mem_cons, List.forall_mem_singleton]
  refine ⟨?_, ?_, by simp [progressive]⟩
  · unfold thirdPerson
    split <;> simp
  · unfold past
    split <;> simp

/-- The forms of a verb are told apart by their last letters, and from the root by their length. -/
theorem nodup_verbForms (root : List Char) : (root :: verbForms root).Nodup := by
  have third : root.length < (thirdPerson root).length ∧
      (thirdPerson root).getLast? = some 'S' := by
    unfold thirdPerson
    split <;> simp
  have pastForm : root.length < (past root).length ∧ (past root).getLast? = some 'D' := by
    unfold past
    split <;> simp
  have progressiveForm : root.length < (progressive root).length ∧
      (progressive root).getLast? = some 'G' := by
    unfold progressive
    split
    · simp
      omega
    · simp
  let ending (form : List Char) : Option Char :=
    if root.length < form.length then form.getLast? else none
  have endings : (root :: verbForms root).map ending = [none, some 'S', some 'D', some 'G'] := by
    simp [ending, verbForms, third, pastForm, progressiveForm]
  refine List.Nodup.of_map ending ?_
  rw [endings]
  decide

/-! ### Plurals -/

/-- The words of a phrase with the last one in the plural. -/
def pluralWords : List String → List String
  | [] => []
  | [word] => [String.ofList (synsetPlural word.toList)]
  | word :: rest => word :: pluralWords rest

theorem pluralWords_concat (front : List String) (word : String) :
    pluralWords (front ++ [word]) = front ++ [String.ofList (synsetPlural word.toList)] := by
  induction front with
  | nil => rfl
  | cons first rest inductionHypothesis =>
    cases rest with
    | nil => rfl
    | cons second others =>
      rw [List.cons_append, List.cons_append, pluralWords, ← List.cons_append, inductionHypothesis]
      · rfl
      · simp

/-- Only the last word of a phrase is inflected. -/
theorem synsetPlural_append (front : List Char) {word : List Char} (nonempty : word ≠ []) :
    synsetPlural (front ++ word) = front ++ synsetPlural word := by
  have sameEnd : endsIn ['Y'] (front ++ word) = endsIn ['Y'] word := by
    rw [endsIn, List.getLast?_append_of_ne_nil _ nonempty, endsIn]
  unfold synsetPlural
  rw [sameEnd, List.dropLast_append_of_ne_nil nonempty]
  split <;> rw [List.append_assoc]

/-- A plural is made of the characters of the phrase and of capitals. -/
theorem forall_mem_synsetPlural {Holds : Char → Prop} {phrase : List Char}
    (ofPhrase : ∀ c ∈ phrase, Holds c) (ofCapital : ∀ c : Char, c.isUpper → Holds c) :
    ∀ c ∈ synsetPlural phrase, Holds c := by
  unfold synsetPlural
  split
  · exact forall_mem_inflected (fun c member => ofPhrase c (List.dropLast_subset phrase member))
      ofCapital rfl
  · exact forall_mem_inflected ofPhrase ofCapital rfl

theorem agentPlural_append (front : List Char) {word : List Char} (nonempty : word ≠ []) :
    agentPlural (front ++ word) = front ++ agentPlural word := by
  have sameEnd : endsIn ['S'] (front ++ word) = endsIn ['S'] word := by
    rw [endsIn, List.getLast?_append_of_ne_nil _ nonempty, endsIn]
  unfold agentPlural
  rw [sameEnd, synsetPlural_append front nonempty]
  split
  next => rw [List.append_assoc]
  next => rfl

theorem forall_mem_agentPlural {Holds : Char → Prop} {phrase : List Char}
    (ofPhrase : ∀ c ∈ phrase, Holds c) (ofCapital : ∀ c : Char, c.isUpper → Holds c) :
    ∀ c ∈ agentPlural phrase, Holds c := by
  unfold agentPlural
  split
  · exact forall_mem_inflected ofPhrase ofCapital rfl
  · exact forall_mem_synsetPlural ofPhrase ofCapital

/-- The plural of a phrase that ends with a word has the last of its words in the plural. -/
theorem splitWords_synsetPlural {phrase : List Char} {last : Char}
    (isLast : phrase.getLast? = some last) (inWord : isSeparator last = false) :
    Phrase.splitWords (synsetPlural phrase) = pluralWords (Phrase.splitWords phrase) := by
  obtain ⟨front, word, rfl, nonempty, unseparated, replaceable⟩ := exists_last_run isLast inWord
  have pluralUnseparated : ∀ c ∈ synsetPlural word, isSeparator c = false :=
    forall_mem_synsetPlural unseparated fun _ => Phrase.isSeparator_of_isUpper
  have pluralNonempty : synsetPlural word ≠ [] := by
    unfold synsetPlural
    split <;> simp
  rw [synsetPlural_append front nonempty, Phrase.splitWords, Phrase.splitWords,
    replaceable _ pluralNonempty pluralUnseparated, replaceable _ nonempty unseparated,
    List.map_append, List.map_append, List.map_singleton, List.map_singleton, pluralWords_concat,
    String.toList_ofList]

end Codebook.Inflection
