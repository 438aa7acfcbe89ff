/-
This file says that a listing shows phrases as they could have been written. A path is shown as its
words in upper case, each with the symbol of its link in front of it, and a phrase has its links
behind its words, so the two agree on where a link stands, except that nothing stands behind the
last word. Main statement: reading what is shown for a phrase leads to the path of the phrase, and
so in the compiled dictionaries two actor, agent or synset phrases are stored on the same path
exactly if a listing shows the same text for them (`Phrase.shown_paths_read_back`).
-/

import Codebook.Proofs.ActorPhrases
import Codebook.Proofs.AgentLines
import Codebook.Proofs.PhraseLinks
import Codebook.Proofs.TrieListing
import Codebook.Proofs.VerbLines

namespace Codebook

open Text

/-! ### What is shown -/

/-- What is shown for the steps behind the first one: each behind the symbol of its link. -/
def Path.shownBehind (path : Path) : List Char :=
  path.flatMap fun step => (step.link?.getD .gap).symbol :: step.shown.toList

theorem Path.toList_render (first : Step) (rest : Path) :
    (render (first :: rest)).toList = first.shown.toList ++ shownBehind rest := by
  have general (shown : String) :
      (rest.foldl (fun shown step =>
        (shown.push (step.link?.getD .gap).symbol) ++ step.shown) shown).toList =
        shown.toList ++ shownBehind rest := by
    induction rest generalizing shown with
    | nil => simp [shownBehind]
    | cons step others inductionHypothesis =>
      rw [List.foldl_cons, inductionHypothesis]
      simp [shownBehind]
  exact general first.shown

/-- The symbol of a link separates words, and it stands for the link. -/
theorem Link.separates_symbol (link : Link) : isSeparator link.symbol = true := by
  cases link <;> decide

theorem Link.linkOf_symbol (link : Link) : Phrase.linkOf link.symbol = link := by
  cases link <;> decide

namespace Phrase

/-! ### Reading what is shown -/

/-- The tokens that are read from what is shown for some others: they are in upper case, and there
is no link behind the last. -/
def shownTokens : List Token → List (List Char × Link)
  | [] => []
  | [last] => [(upperChars last.text.toList, .gap)]
  | token :: next :: rest =>
    (upperChars token.text.toList, token.after) :: shownTokens (next :: rest)

/-- The link behind the last token is on no path, and upper case stays as it is. -/
theorem forwardSteps_shownTokens (link : Link) (tokens : List Token) :
    forwardSteps literal link
        ((shownTokens tokens).map fun token => ⟨String.ofList token.1, token.2⟩) =
      forwardSteps literal link tokens := by
  have upperTwice (token : Token) (link : Link) :
      literal (String.ofList (upperChars token.text.toList)) link = literal token.text link := by
    simp [literal, upper, upperChars_upperChars]
  induction tokens generalizing link with
  | nil => rfl
  | cons token rest inductionHypothesis =>
    cases rest with
    | nil => exact congrArg ([·]) (upperTwice token link)
    | cons next others =>
      rw [shownTokens, List.map_cons, forwardSteps, inductionHypothesis, upperTwice]
      rfl

/-- In upper case the text of a token is a word. -/
structure IsUpperWord (token : Token) : Prop where
  nonempty : upperChars token.text.toList ≠ []
  unseparated : ∀ c ∈ upperChars token.text.toList, isSeparator c = false

/-- The tokens of a phrase are words, and they are still words in upper case. -/
theorem isUpperWord_of_mem_tokens {text : List Char} {token : Token}
    (member : token ∈ (ofChars text).tokens) : IsUpperWord token := by
  have isWord : upper token.text ∈ splitWords (upperChars text) := by
    rw [splitWords_upperChars, ← texts_ofChars]
    exact List.mem_map_of_mem (List.mem_map_of_mem member)
  obtain ⟨run, isRun, same⟩ := List.mem_map.mp isWord
  have shape : upperChars token.text.toList = run := by
    rw [← toList_upper, ← same, String.toList_ofList]
  obtain ⟨nonempty, unseparated⟩ := of_mem_runs isRun
  exact ⟨shape ▸ nonempty, shape ▸ unseparated⟩

theorem draftOf_shownBehind (link : Link) {tokens : List Token}
    (areWords : ∀ token ∈ tokens, IsUpperWord token) :
    draftOf (Path.shownBehind (forwardSteps literal link tokens)) =
      ⟨tokens.head?.map fun _ => link, shownTokens tokens⟩ := by
  induction tokens generalizing link with
  | nil => rfl
  | cons token rest inductionHypothesis =>
    obtain ⟨⟨nonempty, unseparated⟩, restWords⟩ := List.forall_mem_cons.mp areWords
    have shown : Path.shownBehind (forwardSteps literal link (token :: rest)) =
        link.symbol :: (upperChars token.text.toList ++
          Path.shownBehind (forwardSteps literal token.after rest)) := by
      simp [Path.shownBehind, forwardSteps, literal, Step.shown, Step.text?, Step.link?]
    rw [shown, draftOf_cons, draftOf_word_append nonempty unseparated,
      inductionHypothesis token.after restWords, Draft.cons_of_separator link.separates_symbol,
      link.linkOf_symbol]
    cases rest <;> rfl

/-- What is shown for a phrase is read as the shown tokens. -/
theorem tokens_ofText_render (text : List Char) :
    (ofText (ofChars text).rooted.render).tokens =
      (shownTokens (ofChars text).tokens).map fun token => ⟨String.ofList token.1, token.2⟩ := by
  have areWords : ∀ token ∈ (ofChars text).tokens, IsUpperWord token :=
    fun _ => isUpperWord_of_mem_tokens
  rw [rooted]
  cases shape : (ofChars text).tokens with
  | nil => rfl
  | cons first rest =>
    rw [shape] at areWords
    obtain ⟨⟨nonempty, unseparated⟩, restWords⟩ := List.forall_mem_cons.mp areWords
    have draft : draftOf (Path.render (.root (upper first.text) ::
        forwardSteps literal first.after rest)).toList = ⟨none, shownTokens (first :: rest)⟩ := by
      rw [Path.toList_render]
      show draftOf ((upper first.text).toList ++ _) = _
      rw [toList_upper, draftOf_word_append nonempty unseparated,
        draftOf_shownBehind first.after restWords]
      cases rest <;> rfl
    rw [ofText, ofChars, draft]

theorem rooted_eq_forwardSteps (phrase : Phrase) :
    phrase.rooted = forwardSteps literal .gap phrase.tokens := by
  rw [rooted]
  cases phrase.tokens <;> rfl

/-- Reading what is shown for a phrase leads to the path of the phrase. -/
theorem rooted_ofText_render (text : List Char) :
    (ofText (ofChars text).rooted.render).rooted = (ofChars text).rooted := by
  rw [rooted_eq_forwardSteps, tokens_ofText_render, forwardSteps_shownTokens,
    rooted_eq_forwardSteps]

end Phrase

/-! ### Tries of phrases -/

namespace Trie

variable {Payload : Type}

/-- Whether a trie has been built by storing phrases, each on the path that it has. -/
def HoldsPhrases (trie : Trie Payload) : Prop :=
  ∃ phrases : List (Path × Payload), trie = empty.insertAll phrases ∧
    ∀ phrase ∈ phrases, ∃ text, phrase.1 = (Phrase.ofChars text).rooted

theorem holdsPhrases_empty : (empty : Trie Payload).HoldsPhrases :=
  ⟨[], rfl, List.forall_mem_nil _⟩

theorem HoldsPhrases.insertAll {trie : Trie Payload} (holds : trie.HoldsPhrases)
    {phrases : List (Path × Payload)}
    (areRooted : ∀ phrase ∈ phrases, ∃ text, phrase.1 = (Phrase.ofChars text).rooted) :
    (trie.insertAll phrases).HoldsPhrases := by
  obtain ⟨earlier, rfl, earlierRooted⟩ := holds
  exact ⟨earlier ++ phrases, (insertAll_append _ _ _).symm,
    List.forall_mem_append.mpr ⟨earlierRooted, areRooted⟩⟩

theorem HoldsPhrases.insert {trie : Trie Payload} (holds : trie.HoldsPhrases) (text : List Char)
    (payload : Payload) : (trie.insert (Phrase.ofChars text).rooted payload).HoldsPhrases := by
  have isRooted : ∀ phrase ∈ [((Phrase.ofChars text).rooted, payload)],
      ∃ text, phrase.1 = (Phrase.ofChars text).rooted :=
    List.forall_mem_singleton.mpr ⟨text, rfl⟩
  exact holds.insertAll isRooted

/-- Whether a listing tells the paths of a trie: what is shown for a phrase is read as its path, and
two phrases with the same text are stored on the same path. -/
structure ShowsPaths (trie : Trie Payload) : Prop where
  reads_back : ∀ phrase ∈ trie.phrases, (Phrase.ofText phrase.1.render).rooted = phrase.1
  same_text_iff {first second : Nat} {left right : Path × Payload}
    (here : trie.phrases[first]? = some left) (there : trie.phrases[second]? = some right) :
    trie.entries[first]?.map (·.1) = trie.entries[second]?.map (·.1) ↔ left.1 = right.1

theorem HoldsPhrases.showsPaths {trie : Trie Payload} (holds : trie.HoldsPhrases) :
    trie.ShowsPaths := by
  obtain ⟨phrases, rfl, areRooted⟩ := holds
  have reads_back : ∀ phrase ∈ ((empty : Trie Payload).insertAll phrases).phrases,
      (Phrase.ofText phrase.1.render).rooted = phrase.1 := by
    intro phrase member
    rw [phrases_insertAll] at member
    obtain ⟨text, isRooted⟩ := areRooted phrase ((List.mergeSort_perm _ _).subset member)
    rw [isRooted, Phrase.rooted_ofText_render]
  refine ⟨reads_back, fun {first second left right} here there => ?_⟩
  simp only [entries, List.getElem?_map, here, there, Option.map_some, Option.some.injEq]
  constructor
  · intro sameText
    rw [← reads_back left (List.mem_of_getElem? here), sameText,
      reads_back right (List.mem_of_getElem? there)]
  · intro samePath
    rw [samePath]

end Trie

/-! ### Compiled dictionaries -/

theorem AgentDictionary.holdsPhrases_compile (file : String) (script : Script) :
    (compile file script).dictionary.phrases.HoldsPhrases := by
  rw [phrases_compile]
  refine Trie.holdsPhrases_empty.insertAll fun entry isAdded => ?_
  obtain ⟨front, line, below, -, isAdded⟩ := mem_addedFrom.mp isAdded
  unfold addedOn at isAdded
  split at isAdded
  next =>
    split at isAdded
    next =>
      obtain ⟨path, isPath, rfl⟩ := List.mem_map.mp isAdded
      obtain ⟨spelling, -, rfl⟩ := List.mem_map.mp (List.mem_filter.mp isPath).1
      exact ⟨spelling, rfl⟩
    next => cases isAdded
  next => cases isAdded

theorem VerbDictionary.holdsPhrases_compile (file : String) (script : Script) :
    (compile file script).dictionary.synsets.HoldsPhrases := by
  rw [synsets_compile]
  refine Trie.holdsPhrases_empty.insertAll fun entry isAdded => ?_
  obtain ⟨added, isTrace, isAdded⟩ := List.mem_flatten.mp isAdded
  obtain ⟨above, line, below, -, rfl⟩ := VerbState.mem_trace.mp isTrace
  unfold VerbState.membersAdded at isAdded
  split at isAdded
  next =>
    obtain ⟨spelling, -, rfl⟩ := List.mem_map.mp isAdded
    exact ⟨spelling, rfl⟩
  next => cases isAdded

namespace ActorState

theorem holdsPhrases_put {state : ActorState} (holds : state.dictionary.phrases.HoldsPhrases)
    (keepRoots : Bool) (item : ActorItem) :
    (state.put keepRoots item).dictionary.phrases.HoldsPhrases := by
  cases item with
  | primary phrase code? =>
    show ((state.close keepRoots).dictionary.phrases.insert _ _).HoldsPhrases
    rw [phrases_close]
    exact holds.insert phrase _
  | synonym phrase =>
    rw [put]
    cases state.current with
    | none => exact holds
    | some cluster => exact holds.insert phrase _
  | code entry =>
    rw [phrases_put_code]
    exact holds

theorem holdsPhrases_foldl_handle {state : ActorState}
    (holds : state.dictionary.phrases.HoldsPhrases) (keepRoots : Bool) (lines : List Line) :
    (lines.foldl (fun state line => (state.handle keepRoots line).1)
      state).dictionary.phrases.HoldsPhrases := by
  refine List.foldlRecOn (motive := fun state : ActorState =>
    state.dictionary.phrases.HoldsPhrases) lines _ holds ?_
  intro state holds line _
  rw [handle_eq]
  cases ActorItem.read state.current.isSome line.text with
  | error skip => exact holds
  | ok item => exact holdsPhrases_put holds keepRoots item

end ActorState

namespace ActorDictionary

theorem holdsPhrases_compileInto {earlier : ActorDictionary} (holds : earlier.phrases.HoldsPhrases)
    (keepRoots : Bool) (file : String) (script : Script) :
    (earlier.compileInto keepRoots file script).dictionary.phrases.HoldsPhrases := by
  have started : (ActorState.mk earlier none).dictionary.phrases.HoldsPhrases := holds
  have handled := ActorState.holdsPhrases_foldl_handle started keepRoots script.untilStop.lines
  simp only [compileInto, handleLines_fst]
  split
  · rw [ActorState.phrases_close]
    exact handled
  · exact handled

/-- The dictionary of some files, each compiled into that of the files before it. -/
def ofFiles (keepRoots : Bool) (files : List (String × Script)) : ActorDictionary :=
  files.foldl (fun earlier file => (earlier.compileInto keepRoots file.1 file.2).dictionary) empty

theorem holdsPhrases_ofFiles (keepRoots : Bool) (files : List (String × Script)) :
    (ofFiles keepRoots files).phrases.HoldsPhrases :=
  List.foldlRecOn (motive := fun actors : ActorDictionary => actors.phrases.HoldsPhrases) files _
    Trie.holdsPhrases_empty fun _ holds file _ =>
      holdsPhrases_compileInto holds keepRoots file.1 file.2

end ActorDictionary

namespace Phrase

/-- Reading what is shown for a phrase leads to the path of the phrase, so that two phrases have the
same path exactly if the same is shown for them. In compiled dictionaries this holds of all that is
listed for agents, for synsets, and for actors of any number of files. -/
theorem shown_paths_read_back :
    (∀ text : List Char, (ofText (ofChars text).rooted.render).rooted = (ofChars text).rooted) ∧
      (∀ left right : List Char, (ofChars left).rooted.render = (ofChars right).rooted.render ↔
        (ofChars left).rooted = (ofChars right).rooted) ∧
      (∀ (file : String) (script : Script),
        (AgentDictionary.compile file script).dictionary.phrases.ShowsPaths ∧
          (VerbDictionary.compile file script).dictionary.synsets.ShowsPaths) ∧
      ∀ (keepRoots : Bool) (files : List (String × Script)),
        (ActorDictionary.ofFiles keepRoots files).phrases.ShowsPaths := by
  refine ⟨rooted_ofText_render, fun left right => ⟨fun sameText => ?_, fun samePath => ?_⟩,
    fun file script => ⟨?_, ?_⟩, fun keepRoots files => ?_⟩
  · rw [← rooted_ofText_render left, sameText, rooted_ofText_render]
  · rw [samePath]
  · exact (AgentDictionary.holdsPhrases_compile file script).showsPaths
  · exact (VerbDictionary.holdsPhrases_compile file script).showsPaths
  · exact (ActorDictionary.holdsPhrases_ofFiles keepRoots files).showsPaths

/-- An underscore next to a blank is not shown. -/
example : (ofText "Straße_ _des  _17_Juni_").rooted.render = "STRASSE DES 17_JUNI" := by
  decide +kernel

end Phrase

end Codebook
