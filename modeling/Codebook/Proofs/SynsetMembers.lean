/-
This file says which synsets a phrase belongs to. Members of synsets have no underscores left when
they are stored, so a phrase is stored on one path only and the look-up hides none of its synsets.
Main statement: a phrase belongs to the synset of a member line once if it has the words of the
member, and once if it has these words with the last one in the plural and no underscore suppresses
it (`VerbDictionary.synsetsOf_eq`).
-/

import Codebook.Proofs.InflectedWords
import Codebook.Proofs.PhraseWords
import Codebook.Proofs.VerbIntegrity

namespace Codebook

open Text

/-! ### Phrases without adjacent words -/

namespace Trie

variable {Payload : Type}

/-- The path of words after gaps. -/
def gapped (words : List String) : Path :=
  words.map (Step.word · .gap)

theorem gapped_injective : Function.Injective gapped := by
  refine List.map_injective_iff.mpr fun word other same => ?_
  obtain ⟨-, sameText, -⟩ := Step.token.inj same
  exact sameText

theorem spelled_of_gaps {words : List String} {links : List Link}
    (length : links.length = words.length)
    (gaps : ∀ step ∈ spelled words links, step.link? = some .gap) :
    spelled words links = gapped (words.map upper) := by
  induction words generalizing links with
  | nil => simp [spelled, gapped]
  | cons word rest inductionHypothesis =>
    cases links with
    | nil => cases length
    | cons link others =>
      obtain ⟨isGap, restGaps⟩ := List.forall_mem_cons.mp gaps
      obtain rfl : link = .gap := Option.some.inj isGap
      have restSpelled := inductionHypothesis (Nat.succ.inj length) restGaps
      rw [spelled, List.zipWith_cons_cons, ← spelled, restSpelled]
      rfl

theorem spelled_replicate_gap (words : List String) :
    spelled words (List.replicate words.length .gap) = gapped (words.map upper) := by
  induction words with
  | nil => rfl
  | cons word rest inductionHypothesis =>
    rw [List.length_cons, List.replicate_succ, spelled, List.zipWith_cons_cons, ← spelled,
      inductionHypothesis]
    rfl

/-- Where no adjacent words are stored, a look-up finds all that is stored for its words. -/
theorem findWords_of_gaps {phrases : List (Path × Payload)}
    (gaps : ∀ phrase ∈ phrases, ∀ step ∈ phrase.1, step.link? = some .gap) (words : List String) :
    ((empty : Trie Payload).insertAll phrases).findWords words =
      (phrases.filter fun phrase => phrase.1 = gapped (words.map upper)).map (·.2) := by
  have ofInserted {links : List Link} (inserted : IsInserted phrases words links) :
      spelled words links = gapped (words.map upper) := by
    obtain ⟨length, member⟩ := inserted
    obtain ⟨phrase, isPhrase, same⟩ := List.mem_map.mp member
    exact spelled_of_gaps length (same ▸ gaps phrase isPhrase)
  obtain ⟨misses, found⟩ := findWords_eq_least phrases words
  rcases found with none | ⟨links, inserted, -, found⟩
  · rw [misses.mpr none, eq_comm, List.map_eq_nil_iff, List.filter_eq_nil_iff]
    intro phrase isPhrase same
    refine none (List.replicate words.length .gap) ⟨List.length_replicate, ?_⟩
    rw [spelled_replicate_gap, ← of_decide_eq_true same]
    exact List.mem_map_of_mem isPhrase
  · rw [found, ofInserted inserted]

end Trie

namespace Phrase

/-- A draft of a text without underscores has gaps only. -/
theorem gaps_draftOf {text : List Char} (noUnderscore : '_' ∉ text) :
    (∀ link ∈ (draftOf text).run, link = .gap) ∧
      ∀ token ∈ (draftOf text).tokens, token.2 = .gap := by
  induction text with
  | nil => simp [draftOf]
  | cons c rest inductionHypothesis =>
    rw [List.mem_cons, not_or] at noUnderscore
    obtain ⟨differs, restNoUnderscore⟩ := noUnderscore
    obtain ⟨runGap, tokenGaps⟩ := inductionHypothesis restNoUnderscore
    have unfolded : draftOf (c :: rest) = (draftOf rest).cons c := rfl
    rw [unfolded, Draft.cons]
    split
    next separates =>
      have isBlank : isSpace c = true := by
        rcases Bool.or_eq_true_iff.mp separates with underscore | isBlank
        · exact absurd (eq_of_beq underscore).symm differs
        · exact isBlank
      refine ⟨?_, tokenGaps⟩
      cases (draftOf rest).run <;> simp [linkOf, isBlank, joinLinks]
    next =>
      cases run : (draftOf rest).run with
      | some link => exact ⟨by simp, List.forall_mem_cons.mpr ⟨runGap link run, tokenGaps⟩⟩
      | none =>
        cases tokens : (draftOf rest).tokens with
        | nil => simp
        | cons token others =>
          rw [tokens, List.forall_mem_cons] at tokenGaps
          exact ⟨by simp, List.forall_mem_cons.mpr tokenGaps⟩

/-- The words of a phrase without underscores are stored after gaps. -/
theorem rooted_eq_gapped {phrase : List Char} (noUnderscore : '_' ∉ phrase) :
    (ofChars phrase).rooted = Trie.gapped (upperWords phrase) := by
  have tokenGaps : ∀ token ∈ (ofChars phrase).tokens, token.after = .gap := by
    rw [ofChars, List.forall_mem_map]
    exact (gaps_draftOf noUnderscore).2
  have gapped {link : Link} (isGap : link = .gap) {tokens : List Token}
      (gaps : ∀ token ∈ tokens, token.after = .gap) :
      forwardSteps literal link tokens = Trie.gapped ((tokens.map (·.text)).map upper) := by
    induction tokens generalizing link with
    | nil => rfl
    | cons token rest inductionHypothesis =>
      obtain ⟨gap, restGaps⟩ := List.forall_mem_cons.mp gaps
      rw [forwardSteps, inductionHypothesis gap restGaps, isGap]
      rfl
  rw [upperWords, ← texts_ofChars, ← gapped rfl tokenGaps, rooted]
  cases (ofChars phrase).tokens <;> rfl

/-- In upper case the words are stored as they are. -/
theorem rooted_of_isUpperCase {phrase : List Char} (isUpper : IsUpperCase phrase)
    (noUnderscore : '_' ∉ phrase) : (ofChars phrase).rooted = Trie.gapped (splitWords phrase) := by
  rw [rooted_eq_gapped noUnderscore, upperWords, ← splitWords_upperChars, isUpper.upperChars_eq]

end Phrase

/-! ### Members -/

/-- A member line of a synset: the synset that is open, and what stands behind the plus sign. -/
structure Membership where
  synset : OpenSynset
  text : List Char

namespace Membership

def words (member : Membership) : List String :=
  Phrase.upperWords member.text

/-- Whether a member also stands for its plural: an underscore at the end of the header or of the
member suppresses it. -/
def hasPlural (member : Membership) : Bool :=
  member.synset.plurals && (trim member.text).getLast? != some '_'

/-- What a member makes of some words: the name of its synset if the words are its own, and if they
are its own with the last one in the plural. -/
def names (member : Membership) (words : List String) : List String :=
  (if member.words = words then [member.synset.name] else []) ++
    if member.hasPlural ∧ Inflection.pluralWords member.words = words then [member.synset.name]
    else []

/-- A member as it is stored. -/
def stored (member : Membership) : List Char :=
  upperChars (trim (blankUnderscores (trim member.text)))

/-- What a member adds to the synsets. -/
def phrases (member : Membership) : List (Path × String) :=
  (VerbState.memberSpellings member.synset member.text).map fun spelling =>
    ((Phrase.ofChars spelling).rooted, member.synset.name)

theorem isUpperCase_stored (member : Membership) : IsUpperCase member.stored :=
  isUpperCase_upperChars _

theorem splitWords_stored (member : Membership) :
    Phrase.splitWords member.stored = member.words := by
  rw [stored, Phrase.splitWords_upperChars, Phrase.splitWords_trim,
    Phrase.splitWords_blankUnderscores, Phrase.splitWords_trim]
  rfl

theorem underscore_notMem_blankUnderscores (text : List Char) : '_' ∉ blankUnderscores text := by
  rw [blankUnderscores, List.mem_map]
  rintro ⟨c, -, same⟩
  split at same
  next => cases same
  next differs => exact differs same

theorem underscore_notMem_stored (member : Membership) : '_' ∉ member.stored := by
  rw [stored, mem_upperChars_iff (by decide) (by decide)]
  exact fun underscore => underscore_notMem_blankUnderscores _ (trim_subset _ underscore)

/-- A stored member ends with a word. -/
theorem exists_getLast?_stored {member : Membership} (nonempty : member.stored ≠ []) :
    ∃ last, member.stored.getLast? = some last ∧ isSeparator last = false := by
  have notEmpty : trim (blankUnderscores (trim member.text)) ≠ [] :=
    fun empty => nonempty (upperChars_eq_nil_iff.mpr empty)
  have isEnd := List.getLast?_eq_some_getLast notEmpty
  generalize (trim (blankUnderscores (trim member.text))).getLast notEmpty = c at isEnd
  have inWord : isSeparator c = false := by
    have notUnderscore : (c == '_') = false := by
      rw [beq_eq_false_iff_ne]
      rintro rfl
      exact underscore_notMem_blankUnderscores _ (trim_subset _ (List.mem_of_getLast? isEnd))
    have notSpace : isSpace c = false := not_drop_getLast?_dropEndWhile isSpace _ c isEnd
    rw [isSeparator, notUnderscore, notSpace, Bool.or_false]
  obtain ⟨last, inImage, isLast⟩ := exists_getLast?_upperChars isEnd
  exact ⟨last, isLast, (Phrase.isSeparator_of_mem_upperChar inImage).trans inWord⟩

theorem memberSpellings_eq (member : Membership) :
    VerbState.memberSpellings member.synset member.text =
      if member.stored = [] then []
      else if member.hasPlural then [member.stored, Inflection.synsetPlural member.stored]
      else [member.stored] := by
  unfold VerbState.memberSpellings
  simp [stored, hasPlural]

/-- A member is stored after gaps, under its words and under those of its plural. -/
theorem phrases_eq (member : Membership) :
    member.phrases = if member.stored = [] then []
      else (member.words :: if member.hasPlural then [Inflection.pluralWords member.words]
        else []).map fun words => (Trie.gapped words, member.synset.name) := by
  rw [phrases, memberSpellings_eq]
  split
  next => rfl
  next nonempty =>
    obtain ⟨last, isLast, inWord⟩ := exists_getLast?_stored nonempty
    have base : (Phrase.ofChars member.stored).rooted = Trie.gapped member.words := by
      rw [Phrase.rooted_of_isUpperCase member.isUpperCase_stored member.underscore_notMem_stored,
        splitWords_stored]
    have plural : (Phrase.ofChars (Inflection.synsetPlural member.stored)).rooted =
        Trie.gapped (Inflection.pluralWords member.words) := by
      have isUpper : IsUpperCase (Inflection.synsetPlural member.stored) :=
        Inflection.forall_mem_synsetPlural member.isUpperCase_stored fun _ => upperChar_of_isUpper
      have differs : ∀ c ∈ Inflection.synsetPlural member.stored, c ≠ '_' := by
        refine Inflection.forall_mem_synsetPlural (fun c inStored => ?_)
          fun _ => Phrase.ne_underscore_of_isUpper
        rintro rfl
        exact member.underscore_notMem_stored inStored
      rw [Phrase.rooted_of_isUpperCase isUpper fun underscore => differs '_' underscore rfl,
        Inflection.splitWords_synsetPlural isLast inWord, splitWords_stored]
    split <;> simp [base, plural]

theorem gaps_phrases {member : Membership} {phrase : Path × String}
    (isPhrase : phrase ∈ member.phrases) : ∀ step ∈ phrase.1, step.link? = some .gap := by
  rw [phrases_eq] at isPhrase
  split at isPhrase
  next => cases isPhrase
  next =>
    obtain ⟨words, -, rfl⟩ := List.mem_map.mp isPhrase
    simp [Trie.gapped, Step.link?]

/-- A phrase finds a member under its words and under those of its plural. -/
theorem filter_phrases (member : Membership) {words : List String} (nonempty : words ≠ []) :
    (member.phrases.filter fun phrase => phrase.1 = Trie.gapped words).map (·.2) =
      member.names words := by
  rw [phrases_eq]
  split
  next empty =>
    have noWords : member.words = [] := by
      rw [← member.splitWords_stored, empty]
      rfl
    rw [names, noWords]
    simp [Inflection.pluralWords, nonempty.symm]
  next =>
    have single (own : List String) :
        ([(Trie.gapped own, member.synset.name)].filter fun phrase =>
          phrase.1 = Trie.gapped words).map (·.2) =
            if own = words then [member.synset.name] else [] := by
      rw [List.filter_singleton, Bool.cond_decide]
      simp only [Trie.gapped_injective.eq_iff]
      split <;> rfl
    rw [names, List.map_cons, ← List.singleton_append, List.filter_append, List.map_append, single]
    cases member.hasPlural with
    | false => simp
    | true =>
      rw [if_pos rfl, List.map_singleton, single]
      simp

end Membership

/-! ### Member lines -/

namespace Line

/-- Whether a line starts with a plus sign, as the members of synsets do. -/
def isPlus (line : Line) : Bool :=
  (trim line.text).head? = some '+'

/-- The synset that a line opens. Its name is in upper case and ends before the underscores. -/
def synset? (line : Line) : Option OpenSynset :=
  match VerbState.entryItem (trim line.text) with
  | .synset header =>
    let name := upperChars (dropEndWhile (· == '_') header)
    if (String.ofList name).utf8ByteSize < 2 ∨ name.any isSpace then none
    else some ⟨String.ofList name, header.getLast? ≠ some '_'⟩
  | _ => none

end Line

/-- The synset that is open below some lines: the one that the last line without a plus sign opens,
if it opens one. -/
def openSynset? (above : List Line) : Option OpenSynset :=
  (above.filter (!·.isPlus)).getLast?.bind Line.synset?

/-- A line below others as a member of a synset, if it is one. -/
def member? (above : List Line) (line : Line) : Option Membership :=
  match openSynset? above, trim line.text with
  | some synset, '+' :: text => some ⟨synset, text⟩
  | _, _ => none

/-- The members among some lines below others, in order. -/
def membersBelow (above : List Line) : List Line → List Membership
  | [] => []
  | line :: below => (member? above line).toList ++ membersBelow (above ++ [line]) below

namespace VerbState

/-- Where no synset is open, a line with a plus sign is a verb line. -/
theorem exists_entryItem_plus (rest : List Char) :
    ∃ body code?, entryItem ('+' :: rest) = .verb body code? := by
  have start := head?_splitCode (by decide : isSpace '+' = false) (by decide) rest
  obtain ⟨others, body⟩ := List.head?_eq_some_iff.mp start
  refine ⟨'+' :: others, (splitCode ('+' :: rest)).2, ?_⟩
  unfold entryItem
  dsimp only
  rw [body]
  rfl

/-- A line without a plus sign closes the open synset, and may open one. -/
theorem synsetAfter_of_not_isPlus {line : Line} (noPlus : line.isPlus = false)
    (state : VerbState) : state.synsetAfter line = line.synset? := by
  have item : state.item line = entryItem (trim line.text) := by
    unfold VerbState.item
    split
    next isPlus => simp [Line.isPlus, isPlus] at noPlus
    next => rfl
  unfold synsetAfter openedSynset? Line.synset?
  rw [item]
  cases entry : entryItem (trim line.text) with
  | member synset text => exact absurd entry (entryItem_ne_member _ _ _)
  | synset header =>
    dsimp only
    unfold openSynset
    dsimp only
    split <;> rfl
  | _ => rfl

/-- A line with a plus sign leaves the open synset as it is. -/
theorem synsetAfter_of_isPlus {line : Line} (isPlus : line.isPlus = true) (state : VerbState) :
    state.synsetAfter line = state.synset := by
  obtain ⟨rest, text⟩ := List.head?_eq_some_iff.mp (of_decide_eq_true isPlus)
  obtain ⟨body, code?, entry⟩ := exists_entryItem_plus rest
  unfold synsetAfter openedSynset? VerbState.item
  rw [text]
  cases state.synset with
  | none =>
    dsimp only
    rw [entry]
  | some synset => rfl

/-- The open synset is that of the last line without a plus sign. -/
theorem synset_run (lines : List Line) : (start.run lines).synset = openSynset? lines := by
  induction lines using List.reverseRecOn with
  | nil => rfl
  | append_singleton front line inductionHypothesis =>
    rw [run_append, run_cons, run_nil, fst_handle, openSynset?, List.filter_append]
    dsimp only
    cases isPlus : line.isPlus with
    | true =>
      rw [synsetAfter_of_isPlus isPlus, inductionHypothesis, openSynset?]
      simp [isPlus]
    | false =>
      rw [synsetAfter_of_not_isPlus isPlus]
      simp [isPlus]

/-- A line adds to the members of the synsets exactly if it is one of them. -/
theorem membersAdded_eq (above : List Line) (line : Line) :
    (start.run above).membersAdded line =
      (member? above line).toList.flatMap Membership.phrases := by
  unfold member?
  split
  next synset text isOpen isMember =>
    have item : (start.run above).item line = .member synset text := by
      rw [VerbState.item, synset_run, isOpen, isMember]
      rfl
    rw [membersAdded, item]
    simp [Membership.phrases]
  next noMember =>
    have item : (start.run above).item line = entryItem (trim line.text) := by
      unfold VerbState.item
      rw [synset_run]
      split
      next synset text isOpen isMember => exact absurd isMember (noMember synset text isOpen)
      next => rfl
    unfold membersAdded
    rw [item]
    split
    next synset text entry => exact absurd entry (entryItem_ne_member _ _ _)
    next => rfl

theorem flatten_trace_membersAdded (above lines : List Line) :
    ((start.run above).trace membersAdded lines).flatten =
      (membersBelow above lines).flatMap Membership.phrases := by
  induction lines generalizing above with
  | nil => rfl
  | cons line rest inductionHypothesis =>
    have next : ((start.run above).handle line).1 = start.run (above ++ [line]) := by
      rw [run_append, run_cons, run_nil]
    rw [trace_cons, List.flatten_cons, membersAdded_eq, next, inductionHypothesis, membersBelow,
      List.flatMap_append]

end VerbState

namespace VerbDictionary

/-- A phrase names the synset of each member line that has its words, and that of each member line
that has its words once the last one is put in the plural, unless its plural is suppressed. The names
come in the order of the lines, and there are no others. -/
theorem synsetsOf_eq (file : String) (script : Script) {phrase : String}
    (hasWord : Phrase.splitWords phrase.toList ≠ []) :
    (compile file script).dictionary.synsetsOf phrase =
      (membersBelow [] script.lines).flatMap (·.names (Phrase.upperWords phrase.toList)) := by
  have nonempty : Phrase.upperWords phrase.toList ≠ [] := fun empty =>
    hasWord (List.map_eq_nil_iff.mp empty)
  have phrases : (VerbState.start.trace VerbState.membersAdded script.lines).flatten =
      (membersBelow [] script.lines).flatMap Membership.phrases :=
    VerbState.flatten_trace_membersAdded [] script.lines
  have gaps : ∀ stored ∈ (membersBelow [] script.lines).flatMap Membership.phrases,
      ∀ step ∈ stored.1, step.link? = some .gap := by
    intro stored isStored
    obtain ⟨member, -, isPhrase⟩ := List.mem_flatMap.mp isStored
    exact Membership.gaps_phrases isPhrase
  rw [synsetsOf, synsets_compile, phrases, Trie.findWords_of_gaps gaps, List.filter_flatMap,
    List.map_flatMap]
  exact List.flatMap_congr fun member _ => member.filter_phrases nonempty

/-- Three synsets with a common member. The header of the second one suppresses its plurals, and so
does a member of the first one. -/
def placesScript : Script where
  lines := List.mapIdx (fun index text => ⟨index + 1, text.toList⟩)
    ["&COUNTRY", "+capital_city", "+nation_", "&STATE_", "+CAPITAL CITY", "+nation", "&PLACE",
      "+ capital  city"]
  failedAfter := none

/-- The common member names all three synsets, its plural only those that allow it. -/
theorem capital_cities_belong :
    let verbs := (compile "verbs" placesScript).dictionary
    Phrase.splitWords "Capital_cities".toList ≠ [] ∧
      verbs.synsetsOf "Capital_cities" = ["&COUNTRY", "&PLACE"] ∧
      verbs.synsetsOf "capital city" = ["&COUNTRY", "&STATE", "&PLACE"] := by
  intro verbs
  have hasWord : Phrase.splitWords "Capital_cities".toList ≠ [] := by decide
  have hasWordToo : Phrase.splitWords "capital city".toList ≠ [] := by decide
  refine ⟨hasWord, ?_, ?_⟩
  · rw [show verbs.synsetsOf "Capital_cities" = _ from synsetsOf_eq "verbs" placesScript hasWord]
    decide +kernel
  · rw [show verbs.synsetsOf "capital city" = _ from
      synsetsOf_eq "verbs" placesScript hasWordToo]
    decide +kernel

end VerbDictionary

end Codebook
