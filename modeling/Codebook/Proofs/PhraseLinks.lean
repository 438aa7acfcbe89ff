/-
This file says how the path of a phrase changes with its text. The draft of a text is put together
from that of a front which ends with a separator and that of what follows, and upper case changes
the tokens of a draft one by one. Main statements: a word behind a separator adds one step to the
path (`Phrase.rooted_append_word`), separators at the end add none
(`Phrase.rooted_append_separators`), and in upper case a phrase has the same path
(`Phrase.rooted_upperChars`).
-/

import Codebook.Proofs.PhraseWords
import Codebook.Proofs.WordRuns

namespace Codebook

open Text

namespace Phrase

/-! ### Drafts -/

theorem draftOf_cons (c : Char) (rest : List Char) :
    draftOf (c :: rest) = (draftOf rest).cons c := rfl

theorem Draft.cons_of_separator {c : Char} (separates : isSeparator c = true) (draft : Draft) :
    draft.cons c =
      { draft with run := some (draft.run.elim (linkOf c) (joinLinks (linkOf c))) } := by
  rw [Draft.cons, if_pos separates]

/-- Puts characters that do not separate before a draft. -/
def Draft.consWord (word : List Char) (draft : Draft) : Draft :=
  match draft.run, draft.tokens with
  | some link, tokens => ⟨none, (word, link) :: tokens⟩
  | none, [] => ⟨none, [(word, .gap)]⟩
  | none, (text, after) :: tokens => ⟨none, (word ++ text, after) :: tokens⟩

theorem Draft.cons_of_unseparated {c : Char} (goesOn : isSeparator c = false) (draft : Draft) :
    draft.cons c = draft.consWord [c] := by
  rw [Draft.cons, goesOn, if_neg Bool.false_ne_true]
  rfl

theorem Draft.consWord_cons (c : Char) (word : List Char) (draft : Draft) :
    (draft.consWord word).consWord [c] = draft.consWord (c :: word) := by
  obtain ⟨_ | link, _ | ⟨⟨text, after⟩, others⟩⟩ := draft <;> rfl

theorem Draft.tokens_consWord_ne_nil (word : List Char) (draft : Draft) :
    (draft.consWord word).tokens ≠ [] := by
  obtain ⟨_ | link, _ | ⟨⟨text, after⟩, others⟩⟩ := draft <;> exact List.cons_ne_nil _ _

/-- Tokens further on stay apart from the word, unless there is nothing in between. -/
theorem Draft.consWord_append (word : List Char) {draft : Draft}
    (notEmpty : draft.run = none → draft.tokens ≠ []) (more : List (List Char × Link)) :
    consWord word ⟨draft.run, draft.tokens ++ more⟩ =
      ⟨(draft.consWord word).run, (draft.consWord word).tokens ++ more⟩ := by
  obtain ⟨_ | link, _ | ⟨⟨text, after⟩, others⟩⟩ := draft
  · exact absurd rfl (notEmpty rfl)
  · rfl
  · rfl
  · rfl

theorem draftOf_word_append {word : List Char} (nonempty : word ≠ [])
    (unseparated : ∀ c ∈ word, isSeparator c = false) (back : List Char) :
    draftOf (word ++ back) = (draftOf back).consWord word := by
  induction word with
  | nil => exact absurd rfl nonempty
  | cons c rest inductionHypothesis =>
    obtain ⟨goesOn, restUnseparated⟩ := List.forall_mem_cons.mp unseparated
    rw [List.cons_append, draftOf_cons, Draft.cons_of_unseparated goesOn]
    cases rest with
    | nil => rfl
    | cons d others =>
      rw [inductionHypothesis (List.cons_ne_nil d others) restUnseparated, Draft.consWord_cons]

theorem tokens_draftOf_separators {text : List Char}
    (separate : ∀ c ∈ text, isSeparator c = true) : (draftOf text).tokens = [] := by
  induction text with
  | nil => rfl
  | cons c rest inductionHypothesis =>
    obtain ⟨separates, restSeparate⟩ := List.forall_mem_cons.mp separate
    rw [draftOf_cons, Draft.cons_of_separator separates]
    exact inductionHypothesis restSeparate

/-- Only the empty text has neither a separator at its start nor a token. -/
theorem eq_nil_of_draftOf {text : List Char} (noRun : (draftOf text).run = none)
    (noTokens : (draftOf text).tokens = []) : text = [] := by
  cases text with
  | nil => rfl
  | cons c rest =>
    cases separates : isSeparator c with
    | true =>
      rw [draftOf_cons, Draft.cons_of_separator separates] at noRun
      cases noRun
    | false =>
      rw [draftOf_cons, Draft.cons_of_unseparated separates] at noTokens
      exact absurd noTokens (Draft.tokens_consWord_ne_nil _ _)

/-- Behind a front that ends with a separator the tokens of what follows are tokens of the whole. -/
theorem draftOf_append {front back : List Char}
    (apart : ∀ c ∈ front.getLast?, isSeparator c = true) (starts : (draftOf back).run = none) :
    draftOf (front ++ back) =
      ⟨(draftOf front).run, (draftOf front).tokens ++ (draftOf back).tokens⟩ := by
  induction front with
  | nil =>
    show draftOf back = ⟨none, (draftOf back).tokens⟩
    rw [← starts]
  | cons c rest inductionHypothesis =>
    rw [List.cons_append, draftOf_cons, draftOf_cons]
    cases rest with
    | nil =>
      have separates : isSeparator c = true := apart c rfl
      rw [List.nil_append, Draft.cons_of_separator separates, Draft.cons_of_separator separates,
        starts]
      rfl
    | cons d others =>
      have restApart : ∀ e ∈ (d :: others).getLast?, isSeparator e = true := by
        simpa using apart
      rw [inductionHypothesis restApart]
      cases separates : isSeparator c with
      | true => rw [Draft.cons_of_separator separates, Draft.cons_of_separator separates]
      | false =>
        -- A front without tokens would let the word before it run on into what follows.
        have notEmpty (noRun : (draftOf (d :: others)).run = none) :
            (draftOf (d :: others)).tokens ≠ [] := fun noTokens =>
          List.cons_ne_nil d others (eq_nil_of_draftOf noRun noTokens)
        rw [Draft.cons_of_unseparated separates, Draft.cons_of_unseparated separates,
          Draft.consWord_append _ notEmpty]

/-- In upper case the tokens of a draft are in upper case, and their links are the same. -/
theorem draftOf_upperChars (text : List Char) :
    draftOf (upperChars text) =
      ⟨(draftOf text).run,
        (draftOf text).tokens.map fun token => (upperChars token.1, token.2)⟩ := by
  induction text with
  | nil => rfl
  | cons c rest inductionHypothesis =>
    have split : upperChars (c :: rest) = upperChar c ++ upperChars rest := List.flatMap_cons
    rw [split, draftOf_cons]
    cases separates : isSeparator c with
    | true =>
      rw [upperChar_of_isSeparator separates, List.singleton_append, draftOf_cons,
        Draft.cons_of_separator separates, Draft.cons_of_separator separates, inductionHypothesis]
    | false =>
      have unseparated : ∀ d ∈ upperChar c, isSeparator d = false := fun d member => by
        rw [isSeparator_of_mem_upperChar member, separates]
      rw [draftOf_word_append (upperChar_ne_nil c) unseparated, inductionHypothesis,
        Draft.cons_of_unseparated separates]
      obtain ⟨_ | link, _ | ⟨⟨word, after⟩, others⟩⟩ := draftOf rest <;>
        simp [Draft.consWord, upperChars]

/-! ### Paths -/

/-- The link after the last of some tokens, or the given one if there is none. -/
def lastLink (first : Link) (tokens : List (List Char × Link)) : Link :=
  (tokens.getLast?.map (·.2)).getD first

theorem lastLink_cons (first : Link) (token : List Char × Link)
    (rest : List (List Char × Link)) : lastLink first (token :: rest) = lastLink token.2 rest := by
  rw [lastLink, lastLink, List.getLast?_cons]
  cases rest.getLast? <;> rfl

/-- The link of a word that is added to a text which ends with a separator. -/
def linkBehind (text : List Char) : Link :=
  lastLink .gap (draftOf text).tokens

/-- White space at the end of a text makes for a gap behind it. -/
theorem linkBehind_of_isSpace {text : List Char} {c : Char} (isLast : text.getLast? = some c)
    (isBlank : isSpace c = true) : linkBehind text = .gap := by
  -- While there is no token yet, the run at the start is the one that ends with the white space.
  have gap (front : List Char) :
      lastLink ((draftOf (front ++ [c])).run.getD .adjacent) (draftOf (front ++ [c])).tokens =
        .gap := by
    induction front with
    | nil =>
      rw [List.nil_append, draftOf_cons,
        Draft.cons_of_separator (isSeparator_of_isSpace isBlank)]
      simp [draftOf, linkOf, isBlank, lastLink]
    | cons d rest inductionHypothesis =>
      rw [List.cons_append, draftOf_cons]
      generalize draftOf (rest ++ [c]) = draft at inductionHypothesis
      obtain ⟨run, tokens⟩ := draft
      cases separates : isSeparator d with
      | true =>
        rw [Draft.cons_of_separator separates]
        cases tokens with
        | nil =>
          rcases run with _ | _ | _
          · cases inductionHypothesis
          · cases inductionHypothesis
          · cases linkOf d <;> rfl
        | cons token others => rwa [lastLink_cons] at inductionHypothesis ⊢
      | false =>
        rw [Draft.cons_of_unseparated separates]
        rcases run with _ | link
        · rcases tokens with _ | ⟨token, others⟩
          · cases inductionHypothesis
          · rw [lastLink_cons] at inductionHypothesis
            exact (lastLink_cons _ _ _).trans inductionHypothesis
        · exact (lastLink_cons _ _ _).trans inductionHypothesis
  obtain ⟨front, rfl⟩ := List.getLast?_eq_some_iff.mp isLast
  have gap := gap front
  rw [linkBehind]
  cases shape : (draftOf (front ++ [c])).tokens with
  | nil => rfl
  | cons token others =>
    rw [shape, lastLink_cons] at gap
    rw [lastLink_cons, gap]

theorem forwardSteps_eq_spelled (link : Link) (tokens : List Token) :
    forwardSteps literal link tokens =
      Trie.spelled (tokens.map (·.text)) (link :: tokens.map (·.after)) := by
  induction tokens generalizing link with
  | nil => rfl
  | cons token rest inductionHypothesis =>
    rw [forwardSteps, inductionHypothesis]
    rfl

/-- The path of a phrase spells its words, each with the link of the word before it. -/
theorem rooted_eq_spelled (text : List Char) :
    (ofChars text).rooted =
      Trie.spelled ((draftOf text).tokens.map fun token => String.ofList token.1)
        (.gap :: (draftOf text).tokens.map (·.2)) := by
  have rooted_eq : (ofChars text).rooted = forwardSteps literal .gap (ofChars text).tokens := by
    rw [rooted]
    cases (ofChars text).tokens <;> rfl
  rw [rooted_eq, forwardSteps_eq_spelled, ofChars, List.map_map, List.map_map]
  rfl

/-- A word behind others is linked as the last of them says. -/
theorem spelled_concat (first : Link) (tokens : List (List Char × Link)) (word : String)
    (link : Link) :
    Trie.spelled ((tokens.map fun token => String.ofList token.1) ++ [word])
        (first :: (tokens.map (·.2) ++ [link])) =
      Trie.spelled (tokens.map fun token => String.ofList token.1) (first :: tokens.map (·.2)) ++
        [.word (upper word) (lastLink first tokens)] := by
  induction tokens generalizing first with
  | nil => rfl
  | cons token rest inductionHypothesis =>
    have spelledRest := inductionHypothesis token.2
    simp only [Trie.spelled] at spelledRest
    simp only [Trie.spelled, List.map_cons, List.cons_append, List.zipWith_cons_cons, spelledRest,
      lastLink_cons]

/-- A word behind a separator adds one step to the path. What separates behind it adds none. -/
theorem rooted_append_word {front word back : List Char}
    (apart : ∀ c ∈ front.getLast?, isSeparator c = true) (nonempty : word ≠ [])
    (unseparated : ∀ c ∈ word, isSeparator c = false)
    (separate : ∀ c ∈ back, isSeparator c = true) :
    (ofChars (front ++ (word ++ back))).rooted =
      (ofChars front).rooted ++ [.word (upper (String.ofList word)) (linkBehind front)] := by
  obtain ⟨link, single⟩ : ∃ link, draftOf (word ++ back) = ⟨none, [(word, link)]⟩ := by
    have noTokens := tokens_draftOf_separators separate
    rw [draftOf_word_append nonempty unseparated, Draft.consWord, noTokens]
    cases (draftOf back).run with
    | none => exact ⟨_, rfl⟩
    | some link => exact ⟨_, rfl⟩
  have whole : draftOf (front ++ (word ++ back)) = _ := draftOf_append apart (by rw [single])
  rw [single] at whole
  rw [rooted_eq_spelled, rooted_eq_spelled, whole, linkBehind, List.map_append, List.map_append]
  exact spelled_concat _ _ _ _

theorem rooted_of_separators {text : List Char} (separate : ∀ c ∈ text, isSeparator c = true) :
    (ofChars text).rooted = [] := by
  rw [rooted_eq_spelled, tokens_draftOf_separators separate]
  rfl

/-- Separators at the end do not count. -/
theorem rooted_append_separators {back : List Char} (separate : ∀ c ∈ back, isSeparator c = true)
    (front : List Char) : (ofChars (front ++ back)).rooted = (ofChars front).rooted := by
  obtain ⟨tail, shape, tailSeparates⟩ := exists_append_dropEndWhile isSeparator front
  have ends := not_drop_getLast?_dropEndWhile isSeparator front
  generalize dropEndWhile isSeparator front = text at shape ends
  have bothSeparate : ∀ c ∈ tail ++ back, isSeparator c = true :=
    List.forall_mem_append.mpr ⟨tailSeparates, separate⟩
  rw [shape, List.append_assoc]
  cases isLast : text.getLast? with
  | none =>
    obtain rfl := List.getLast?_eq_none_iff.mp isLast
    rw [List.nil_append, List.nil_append, rooted_of_separators bothSeparate,
      rooted_of_separators tailSeparates]
  | some last =>
    obtain ⟨before, word, rfl, nonempty, unseparated, apart⟩ :=
      exists_append_run isLast (ends last isLast)
    rw [List.append_assoc, List.append_assoc,
      rooted_append_word apart nonempty unseparated bothSeparate,
      rooted_append_word apart nonempty unseparated tailSeparates]

/-- In upper case a phrase has the same path. -/
theorem rooted_upperChars (text : List Char) :
    (ofChars (upperChars text)).rooted = (ofChars text).rooted := by
  have upperTwice (word : List Char) :
      upper (String.ofList (upperChars word)) = upper (String.ofList word) := by
    simp [upper, upperChars_upperChars]
  rw [rooted_eq_spelled, rooted_eq_spelled, draftOf_upperChars]
  simp [Trie.spelled, List.zipWith_map_left, Function.comp_def, upperTwice]

end Phrase

end Codebook
