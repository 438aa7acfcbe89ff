/-
This file shows that a compiled verb dictionary is closed under its own references. Main statement:
every form leads to the primary of a block, every pattern is stored under its anchor, and every
synset that a pattern or a member refers to is defined (`VerbDictionary.integrity_compile`). What
makes it true is that references are checked, or made, while what they refer to is already there,
and that nothing is ever taken away.
-/

import Codebook.Proofs.TrieNodes
import Codebook.Proofs.VerbLines

namespace Codebook

open Text

namespace VerbState

/-! ### Primaries -/

/-- The anchor has been stored as the primary of a block. -/
theorem exists_primary_of_anchor {lines : List Line} {anchor : String}
    (reached : (start.run lines).anchor = some anchor) :
    ∃ entry, (VerbDictionary.formPath anchor, entry) ∈ start.addedBy lines := by
  -- the anchor is the latest primary, so the last line comes first
  induction lines using List.reverseRecOn with
  | nil => cases reached
  | append_singleton front line inductionHypothesis =>
    rw [run_append, run_cons, run_nil, fst_handle] at reached
    rw [addedBy_append]
    cases primary : (start.run front).primary? line with
    | none =>
      have before : (start.run front).anchor = some anchor := by
        simpa [anchorAfter, primary] using reached
      obtain ⟨entry, stored⟩ := inductionHypothesis before
      exact ⟨entry, List.mem_append_left _ stored⟩
    | some entry =>
      obtain rfl : entry.anchor = anchor := by
        simpa [anchorAfter, primary] using reached
      exact ⟨entry, List.mem_append_right _ (by simp [addedBy, added, primary])⟩

/-- A line that stores forms leaves an anchor behind, and stores them with it. -/
theorem anchorAfter_of_mem_formsAdded {state : VerbState} {line : Line} {path : Path}
    {form : VerbEntry} (added : (path, form) ∈ state.formsAdded line) :
    state.anchorAfter line = some form.anchor := by
  obtain ⟨text, code?, verbLine, item, writes, -, rfl⟩ := mem_formsAdded_iff.mp added
  have named : (state.verbLine? line).isSome := by
    simp [verbLine?, item, readVerbLine_eq_ok_iff.mpr writes, Except.toOption]
  have settled : (state.anchorAfter line).isSome := by
    have becomes := @isSome_primary?_iff state line
    unfold anchorAfter
    cases primary : state.primary? line with
    | some entry => rfl
    | none =>
      cases anchor : state.anchor with
      | some anchor => rfl
      | none => simp [primary, anchor, named] at becomes
  obtain ⟨anchor, same⟩ := Option.isSome_iff_exists.mp settled
  rw [same]
  rfl

/-! ### Synsets -/

/-- A synset stays defined. -/
theorem contains_synsetNames_run {state : VerbState} {name : String}
    (defined : state.dictionary.synsetNames.contains name = true) (lines : List Line) :
    (state.run lines).dictionary.synsetNames.contains name = true := by
  induction lines generalizing state with
  | nil => exact defined
  | cons line rest inductionHypothesis =>
    rw [run_cons]
    refine inductionHypothesis ?_
    rw [fst_handle]
    cases state.openedSynset? line with
    | none => exact defined
    | some synset => exact SortedMap.contains_insert_of_contains defined _ _

/-- A synset that is open after a line was opened by the line, or was open before. -/
theorem synsetAfter_eq_some {state : VerbState} {line : Line} {synset : OpenSynset}
    (isOpen : state.synsetAfter line = some synset) :
    state.openedSynset? line = some synset ∨
      state.openedSynset? line = none ∧ state.synset = some synset := by
  unfold synsetAfter at isOpen
  split at isOpen
  next item => exact .inr ⟨by simp [openedSynset?, item], isOpen⟩
  next => exact .inl isOpen

/-- The open synset is defined. -/
theorem contains_synsetNames_of_open {lines : List Line} {synset : OpenSynset}
    (isOpen : (start.run lines).synset = some synset) :
    (start.run lines).dictionary.synsetNames.contains synset.name = true := by
  induction lines using List.reverseRecOn generalizing synset with
  | nil => cases isOpen
  | append_singleton front line inductionHypothesis =>
    rw [run_append, run_cons, run_nil, fst_handle] at isOpen ⊢
    rcases synsetAfter_eq_some isOpen with opened | ⟨opened, before⟩
    · simp [opened]
    · simpa [opened] using inductionHypothesis before

theorem entryItem_ne_member (text : List Char) (synset : OpenSynset) (member : List Char) :
    entryItem text ≠ .member synset member := by
  unfold entryItem
  dsimp only
  split <;> simp

/-- Only the lines of an open synset are members. -/
theorem synset_of_item_eq_member {state : VerbState} {line : Line} {synset : OpenSynset}
    {text : List Char} (item : state.item line = .member synset text) :
    state.synset = some synset := by
  unfold VerbState.item at item
  split at item
  next isOpen _ =>
    obtain ⟨rfl, -⟩ := Item.member.inj item
    exact isOpen
  next => exact absurd item (entryItem_ne_member _ _ _)

/-- Members are stored for the open synset. -/
theorem synset_of_mem_membersAdded {state : VerbState} {line : Line} {path : Path} {name : String}
    (added : (path, name) ∈ state.membersAdded line) :
    ∃ synset, state.synset = some synset ∧ synset.name = name := by
  unfold membersAdded at added
  split at added
  next synset text item =>
    obtain ⟨spelling, -, equal⟩ := List.mem_map.mp added
    exact ⟨synset, synset_of_item_eq_member item, (Prod.mk.inj equal).2⟩
  next => cases added

/-! ### References of patterns -/

/-- A reference to a synset is one in upper case, too. -/
theorem head?_upper_of_reference {text : String} (reference : text.toList.head? = some '&') :
    (upper text).toList.head? = some '&' := by
  obtain ⟨rest, spelled⟩ := List.head?_eq_some_iff.mp reference
  rw [toList_upper, spelled]
  rfl

theorem exists_token_of_mem_forwardSteps {stepOf : String → Link → Step} {link : Link}
    {tokens : List Token} {step : Step}
    (member : step ∈ Phrase.forwardSteps stepOf link tokens) :
    ∃ token ∈ tokens, ∃ link, stepOf token.text link = step := by
  induction tokens generalizing link with
  | nil => cases member
  | cons token rest inductionHypothesis =>
    rcases List.mem_cons.mp member with rfl | later
    · exact ⟨token, List.mem_cons_self, link, rfl⟩
    · obtain ⟨other, isToken, same⟩ := inductionHypothesis later
      exact ⟨other, List.mem_cons_of_mem _ isToken, same⟩

/-- The steps of a pattern behind its anchor come from its tokens, boundaries apart. -/
theorem exists_token_of_mem_path {pattern : Pattern} {step : Step} (onPath : step ∈ pattern.path) :
    step = .root pattern.anchor ∨ step = .boundary ∨
      ∃ token ∈ pattern.before.tokens ++ pattern.after.tokens, ∃ link,
        Phrase.patternStep token.text link = step := by
  simp only [Pattern.path, List.mem_append, List.mem_singleton] at onPath
  rcases onPath with ((isRoot | isAfter) | isBoundary) | isBefore
  · exact .inl isRoot
  · obtain ⟨token, isToken, same⟩ := exists_token_of_mem_forwardSteps isAfter
    exact .inr (.inr ⟨token, List.mem_append_right _ isToken, same⟩)
  · exact .inr (.inl isBoundary)
  · obtain ⟨token, isToken, same⟩ := List.mem_map.mp isBefore
    exact .inr (.inr ⟨token, List.mem_append_left _ (List.mem_reverse.mp isToken), _, same⟩)

/-- The synsets on the path of a stored pattern are defined. -/
theorem contains_of_synset_mem_path {state : VerbState} {line : Line} {pattern : Pattern}
    (stored : state.pattern? line = some pattern) {name : String} {link : Link}
    (onPath : .token .synset name link ∈ pattern.path) :
    state.dictionary.synsetNames.contains name = true := by
  obtain ⟨-, noneUndefined, -⟩ := pattern?_eq_some stored
  rcases exists_token_of_mem_path onPath with isRoot | isBoundary | ⟨token, isToken, link, same⟩
  · cases isRoot
  · cases isBoundary
  · unfold Phrase.patternStep at same
    split at same
    next reference =>
      obtain ⟨-, rfl, -⟩ := Step.token.inj same
      unfold undefinedSynset? at noneUndefined
      have checked := List.find?_eq_none.mp noneUndefined (upper token.text)
        (List.mem_map_of_mem isToken)
      have inUpper := head?_upper_of_reference reference
      rw [toList_upper] at inUpper
      simpa [inUpper] using checked
    next =>
      split at same <;> cases same

end VerbState

/-! ### The dictionary -/

/-- A verb dictionary that is closed under its own references. -/
structure VerbDictionary.Integrity (verbs : VerbDictionary) : Prop where
  /-- The anchor of every form is stored among the patterns. -/
  anchor_stored : ∀ node, ∀ form ∈ verbs.forms.payloads node,
    verbs.patterns.find (formPath form.anchor) ≠ []
  /-- So whenever a verb is resolved, there are patterns to look at. -/
  anchor_reached : ∀ verb form, verbs.form? verb = some form →
    (verbs.patterns.root? form.anchor).isSome
  /-- Every pattern is stored along one path only, and this path starts at its anchor. -/
  pattern_rooted : ∀ node, ∀ record ∈ verbs.patterns.payloads node, ∃ path,
    path.head? = some (.root record.anchor) ∧
      ∀ other, verbs.patterns.walk other = some node ↔ other = path
  /-- Every synset on a path is defined. -/
  reference_defined : ∀ node name link next,
    verbs.patterns.child? node (.token .synset name link) = some next →
      verbs.synsetNames.contains name = true
  /-- Every synset that has members is defined. -/
  membership_defined : ∀ node, ∀ name ∈ verbs.synsets.payloads node,
    verbs.synsetNames.contains name = true

namespace VerbDictionary

open VerbState

/-- The anchor of every form has been stored as the primary of a block. -/
theorem find_anchor_ne_nil (file : String) (script : Script) {node : Nat} {form : VerbEntry}
    (held : form ∈ (compile file script).dictionary.forms.payloads node) :
    (compile file script).dictionary.patterns.find (formPath form.anchor) ≠ [] := by
  rw [forms_compile] at held
  obtain ⟨path, inserted, -⟩ := Trie.exists_mem_of_mem_payloads held
  obtain ⟨_, seen, added⟩ := List.mem_flatten.mp inserted
  obtain ⟨above, line, below, here, rfl⟩ := mem_trace.mp seen
  have anchor : (start.run (above ++ [line])).anchor = some form.anchor := by
    rw [run_append, run_cons, run_nil, fst_handle]
    exact anchorAfter_of_mem_formsAdded added
  obtain ⟨entry, primary⟩ := exists_primary_of_anchor anchor
  have stored : (formPath form.anchor, entry) ∈ start.addedBy script.lines := by
    rw [here, List.append_cons, addedBy_append]
    exact List.mem_append_left _ primary
  exact List.ne_nil_of_mem (mem_find_patterns_iff.mpr stored)

/-- A compiled dictionary is closed under its own references. -/
theorem integrity_compile (file : String) (script : Script) :
    (compile file script).dictionary.Integrity where
  anchor_stored node form held := find_anchor_ne_nil file script held
  anchor_reached verb form known := by
    obtain ⟨node, -, held⟩ := Trie.mem_find_iff.mp (List.mem_of_head? known)
    have found := find_anchor_ne_nil file script held
    rw [← Option.ne_none_iff_isSome]
    intro nowhere
    rw [← Trie.walk_root] at nowhere
    exact found (Trie.find_eq_nil_of_prefix (List.prefix_append _ [Step.boundary]) nowhere)
  pattern_rooted node record held := by
    rw [patterns_compile] at held ⊢
    obtain ⟨path, inserted, leads⟩ := Trie.exists_mem_of_mem_payloads held
    refine ⟨path ++ [.boundary], ?_, fun other => ⟨fun reached => ?_, fun same => same ▸ leads⟩⟩
    · rcases mem_addedBy inserted with ⟨pattern, -, rfl, rfl⟩ | rfl
      · rfl
      · rfl
    · exact (Trie.wellFormed_empty.insertAll _).walk_injective reached leads
  reference_defined node name link next isChild := by
    rw [patterns_compile] at isChild
    obtain ⟨⟨path, entry⟩, inserted, onPath⟩ := Trie.exists_mem_of_child? isChild
    rcases mem_addedBy inserted with ⟨pattern, isPattern, rfl, -⟩ | rfl
    · obtain ⟨above, line, below, here, stored⟩ := mem_patternsOf_iff.mp isPattern
      have defined := contains_of_synset_mem_path stored (by simpa using onPath)
      rw [dictionary_compile, here, run_append]
      exact contains_synsetNames_run defined _
    · simp [formPath] at onPath
  membership_defined node name held := by
    rw [synsets_compile] at held
    obtain ⟨path, inserted, -⟩ := Trie.exists_mem_of_mem_payloads held
    obtain ⟨_, seen, added⟩ := List.mem_flatten.mp inserted
    obtain ⟨above, line, below, here, rfl⟩ := mem_trace.mp seen
    obtain ⟨synset, isOpen, rfl⟩ := synset_of_mem_membersAdded added
    rw [dictionary_compile, here, run_append]
    exact contains_synsetNames_run (contains_synsetNames_of_open isOpen) _

end VerbDictionary

end Codebook
