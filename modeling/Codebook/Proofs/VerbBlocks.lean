/-
This file says when a skipped line of a verb file leaves its block alone. Main statement: a skipped
line changes the block exactly if it is a multi-word verb without a mark that comes where the block
awaits its primary (`VerbState.skipped_keepsBlock_iff`). Such a verb becomes the primary before its
mark is looked for.
-/

import Codebook.Proofs.TrieNodes
import Codebook.Proofs.VerbLines

namespace Codebook

open Text

/-- Whether the reason is that the mark of a multi-word verb is missing. -/
def Skip.IsMissingMark : Skip → Prop
  | .multiWordWithoutRoot _ | .unmarkedForms _ _ => True
  | _ => False

namespace VerbState

variable {state : VerbState} {line : Line} {skip : Skip}

/-! ### Why lines are skipped -/

theorem not_isMissingMark_of_addMember {synset : OpenSynset} {text : List Char}
    (refused : state.addMember synset text = .error skip) : ¬ skip.IsMissingMark := by
  unfold addMember at refused
  dsimp only at refused
  split at refused
  next =>
    obtain rfl := Except.error.inj refused
    exact id
  next => cases refused

theorem not_isMissingMark_of_openSynset {header : List Char}
    (refused : state.openSynset header = .error skip) : ¬ skip.IsMissingMark := by
  unfold openSynset at refused
  dsimp only at refused
  split at refused
  next =>
    obtain rfl := Except.error.inj refused
    exact id
  next => cases refused

theorem not_isMissingMark_of_readPattern {text : List Char} {code? : Option String} {number : Nat}
    (refused : state.readPattern text code? number = .error skip) : ¬ skip.IsMissingMark := by
  unfold readPattern at refused
  dsimp only at refused
  repeat' split at refused
  all_goals cases refused
  all_goals exact id

theorem not_isMissingMark_of_readVerbLine {body : List Char}
    (refused : readVerbLine body = .error skip) : ¬ skip.IsMissingMark := by
  rcases readVerbLine_cases body with ⟨verbLine, read, -⟩ | unclosed | unnamed
  · rw [read] at refused
    cases refused
  · obtain rfl := Except.error.inj (unclosed.symm.trans refused)
    exact id
  · obtain rfl := Except.error.inj (unnamed.symm.trans refused)
    exact id

/-- A verb that can be read is refused for the missing mark only, under its own name. -/
theorem refusal?_eq_some {verbLine : VerbLine} (refused : refusal? verbLine = some skip) :
    skip = .multiWordWithoutRoot (String.ofList verbLine.verb) ∨
      ∃ forms, skip = .unmarkedForms (String.ofList verbLine.verb) forms := by
  unfold refusal? multiWordSurfaces at refused
  split at refused
  next =>
    split at refused
    next failed =>
      split at failed
      next => cases failed
      next =>
        split at failed
        next => exact .inl ((Option.some.inj refused).symm.trans (Except.error.inj failed).symm)
        next => cases failed
    next =>
      dsimp only at refused
      split at refused
      next => cases refused
      next => exact .inr ⟨_, (Option.some.inj refused).symm⟩
  next => cases refused

/-- Why a line is skipped: one case for each part of the compiler that can refuse it. -/
inductive Refused (state : VerbState) (line : Line) (skip : Skip) : Prop
  | member {synset : OpenSynset} {text : List Char}
      (item : state.item line = .member synset text)
      (refused : state.addMember synset text = .error skip)
  | synset {header : List Char} (item : state.item line = .synset header)
      (refused : state.openSynset header = .error skip)
  | pattern {text : List Char} {code? : Option String}
      (item : state.item line = .pattern text code?)
      (refused : state.readPattern text code? line.number = .error skip)
  | unreadable {text : List Char} {code? : Option String}
      (item : state.item line = .verb text code?)
      (refused : readVerbLine text = .error skip)
  | unmarked {text : List Char} {code? : Option String} {verbLine : VerbLine}
      (item : state.item line = .verb text code?) (read : readVerbLine text = .ok verbLine)
      (refused : refusal? verbLine = some skip)

theorem snd_orSkip_eq_some {result : Except Skip VerbState} :
    (orSkip state result).2 = some skip ↔ result = .error skip := by
  cases result <;> simp [orSkip]

theorem refused_of_skipped (skipped : (state.handle line).2 = some skip) :
    state.Refused line skip := by
  unfold handle at skipped
  cases item : state.item line with
  | header code? => simp [item] at skipped
  | member synset text =>
    simp only [item, snd_orSkip_eq_some] at skipped
    exact .member item skipped
  | synset header =>
    simp only [item, snd_orSkip_eq_some] at skipped
    refine .synset item ?_
    unfold openSynset at skipped ⊢
    dsimp only at skipped ⊢
    split at skipped
    next bad => rw [if_pos bad, ← skipped]
    next => cases skipped
  | pattern text code? =>
    simp only [item, snd_orSkip_eq_some] at skipped
    refine .pattern item ?_
    change (state.readPattern text code? line.number).map _ = _ at skipped
    cases read : state.readPattern text code? line.number with
    | error reason => simpa [read, Except.map] using skipped
    | ok pattern => simp [read, Except.map] at skipped
  | verb text code? =>
    simp only [item] at skipped
    cases read : readVerbLine text with
    | error reason =>
      refine .unreadable item ?_
      simpa [addVerb, read] using skipped
    | ok verbLine =>
      rw [addVerb_of_read _ read] at skipped
      exact .unmarked item read skipped

/-- A skipped line whose verb can be read is skipped for the missing mark, and so is no other. -/
theorem isMissingMark_iff_of_skipped (skipped : (state.handle line).2 = some skip) :
    skip.IsMissingMark ↔ (state.verbLine? line).isSome := by
  cases refused_of_skipped skipped with
  | member item refused =>
    simp [verbLine?, item, not_isMissingMark_of_addMember refused]
  | synset item refused =>
    simp [verbLine?, item, not_isMissingMark_of_openSynset refused]
  | pattern item refused =>
    simp [verbLine?, item, not_isMissingMark_of_readPattern refused]
  | unreadable item refused =>
    simp [verbLine?, item, refused, not_isMissingMark_of_readVerbLine refused, Except.toOption]
  | unmarked item read refused =>
    rcases refusal?_eq_some refused with rfl | ⟨forms, rfl⟩ <;>
      simp [verbLine?, item, read, Except.toOption, Skip.IsMissingMark]

theorem memberSpellings_of_refused {synset : OpenSynset} {text : List Char}
    (refused : state.addMember synset text = .error skip) : memberSpellings synset text = [] := by
  unfold addMember at refused
  unfold memberSpellings
  dsimp only at refused ⊢
  split at refused
  next empty => rw [if_pos empty]
  next => cases refused

/-- A skipped line does nothing of what lines other than verbs do. -/
theorem nothing_else_of_skipped (skipped : (state.handle line).2 = some skip) :
    state.openedBlock? line = none ∧ state.openedSynset? line = none ∧
      state.pattern? line = none ∧ state.membersAdded line = [] := by
  cases refused_of_skipped skipped with
  | member item refused =>
    simp [openedBlock?, openedSynset?, pattern?, membersAdded, item,
      memberSpellings_of_refused refused]
  | synset item refused | pattern item refused | unreadable item refused
  | unmarked item _ refused =>
    simp [openedBlock?, openedSynset?, pattern?, membersAdded, item, refused, Except.toOption]

/-! ### Blocks -/

/-- Whether the block that lines stand in is the same in two states: its code, whether it awaits its
primary, the primary patterns go to, and the patterns. -/
structure KeepsBlock (before after : VerbState) : Prop where
  blockCode : after.blockCode = before.blockCode
  awaitingPrimary : after.awaitingPrimary = before.awaitingPrimary
  anchor : after.anchor = before.anchor
  patterns : after.dictionary.patterns = before.dictionary.patterns

/-- A primary on a skipped line is the verb that the reason names. -/
theorem eq_missingMark_of_primary? {entry : VerbEntry}
    (skipped : (state.handle line).2 = some skip) (becomes : state.primary? line = some entry) :
    (skip = .multiWordWithoutRoot entry.anchor ∨
      ∃ forms, skip = .unmarkedForms entry.anchor forms) ∧ entry.line = line.number := by
  unfold primary? at becomes
  cases refused_of_skipped skipped with
  | member item | synset item | pattern item => simp [item] at becomes
  | unreadable item refused => simp [item, refused, Except.toOption] at becomes
  | unmarked item read refused =>
    obtain ⟨-, same⟩ := by
      simpa only [item, read, Except.toOption, Option.map_some,
        Option.ite_none_right_eq_some] using becomes
    rw [← Option.some.inj same]
    exact ⟨refusal?_eq_some refused, rfl⟩

/-- A skipped line changes its block at most by becoming its primary. -/
theorem block_of_skipped (skipped : (state.handle line).2 = some skip) :
    (state.handle line).1.blockCode = state.blockCode ∧
      (state.handle line).1.awaitingPrimary =
        (state.awaitingPrimary && (state.primary? line).isNone) ∧
      (state.handle line).1.anchor = ((state.primary? line).map (·.anchor)).or state.anchor ∧
      (state.handle line).1.dictionary.patterns = state.dictionary.patterns.insertAll
        ((state.primary? line).map fun entry =>
          (VerbDictionary.formPath entry.anchor, entry)).toList := by
  obtain ⟨noHeader, -, noPattern, -⟩ := nothing_else_of_skipped skipped
  simp [fst_handle, added, anchorAfter, noHeader, noPattern]

/-- A skipped line leaves its block as it is, except if the mark of a multi-word verb is missing and
the block still awaits its primary: then the refused verb has become the primary, and is stored
among the patterns, all the same. -/
theorem skipped_keepsBlock_iff (skipped : (state.handle line).2 = some skip) :
    (KeepsBlock state (state.handle line).1 ↔
      ¬ (skip.IsMissingMark ∧ (state.awaitingPrimary ∨ state.anchor = none))) ∧
    (skip.IsMissingMark → (state.awaitingPrimary ∨ state.anchor = none) → ∃ entry : VerbEntry,
      (skip = .multiWordWithoutRoot entry.anchor ∨
        ∃ forms, skip = .unmarkedForms entry.anchor forms) ∧
      entry.line = line.number ∧
      (state.handle line).1.blockCode = state.blockCode ∧
      (state.handle line).1.awaitingPrimary = false ∧
      (state.handle line).1.anchor = some entry.anchor ∧
      (state.handle line).1.dictionary.patterns =
        state.dictionary.patterns.insert (VerbDictionary.formPath entry.anchor) entry) := by
  obtain ⟨code, awaiting, anchor, patterns⟩ := block_of_skipped skipped
  have becomesPrimary : (state.primary? line).isSome ↔
      skip.IsMissingMark ∧ (state.awaitingPrimary ∨ state.anchor = none) := by
    rw [isMissingMark_iff_of_skipped skipped, isSome_primary?_iff, and_comm]
  rw [← becomesPrimary]
  cases primary : state.primary? line with
  | none =>
    rw [primary] at awaiting anchor patterns
    refine ⟨iff_of_true ⟨code, by simpa using awaiting, by simpa using anchor, patterns⟩
      (by simp), ?_⟩
    intro missingMark lacksPrimary
    simp [primary, missingMark, lacksPrimary] at becomesPrimary
  | some entry =>
    rw [primary] at awaiting anchor patterns
    have changed : ¬ KeepsBlock state (state.handle line).1 := by
      intro keeps
      -- the primary is one more phrase among the patterns
      have sameSize := congrArg Trie.size (patterns.symm.trans keeps.patterns)
      simp [Trie.insertAll] at sameSize
    refine ⟨iff_of_false changed (by simp), ?_⟩
    intro _ _
    obtain ⟨named, ownLine⟩ := eq_missingMark_of_primary? skipped primary
    exact ⟨entry, named, ownLine, code, by simpa using awaiting, by simpa using anchor, patterns⟩

/-- A block that awaits its primary. -/
def surroundBlock : VerbState :=
  start.run [⟨1, "--- SURROUND [190] ---".toList⟩]

/-- A multi-word verb without a mark. -/
def cordonLine : Line := ⟨2, "CORDON_OFF".toList⟩

theorem cordon_becomes_primary :
    (surroundBlock.handle cordonLine).2 = some (.multiWordWithoutRoot "CORDON_OFF") ∧
      ∃ entry : VerbEntry, entry.anchor = "CORDON_OFF" ∧
        (surroundBlock.handle cordonLine).1.anchor = some entry.anchor := by
  have refused : (surroundBlock.handle cordonLine).2 =
      some (.multiWordWithoutRoot "CORDON_OFF") := by
    decide +kernel
  refine ⟨refused, ?_⟩
  obtain ⟨entry, named, -, -, -, anchor, -⟩ :=
    (skipped_keepsBlock_iff refused).2 trivial (.inl (by decide +kernel))
  rcases named with same | ⟨forms, same⟩
  · exact ⟨entry, (Skip.multiWordWithoutRoot.inj same).symm, anchor⟩
  · cases same

/-- The line is skipped, and yet the block is not what it was. -/
theorem cordon_changes_block :
    (surroundBlock.handle cordonLine).2 = some (.multiWordWithoutRoot "CORDON_OFF") ∧
      ¬ KeepsBlock surroundBlock (surroundBlock.handle cordonLine).1 := by
  refine ⟨by decide +kernel, fun keeps => ?_⟩
  have changed : (surroundBlock.handle cordonLine).1.anchor ≠ surroundBlock.anchor := by
    decide +kernel
  exact changed keeps.anchor

end VerbState

end Codebook
