/-
This file says under which verb a pattern is stored. Main statement: a pattern goes to the first
verb that could be read in its block, provided that verb stands above the pattern; if no verb does,
it goes to the primary of an earlier block (`VerbDictionary.pattern_anchor`). So a pattern leaves
its block if it comes before the verbs of the block, and a verb that is refused may still be the one
that patterns are stored under.
-/

import Codebook.Proofs.VerbLines

namespace Codebook

namespace VerbState

/-! ### Lines in their blocks -/

/-- What became of a line: what it was taken for, and why it was skipped if it was. -/
structure Handled where
  item : Item
  skip? : Option Skip
deriving DecidableEq

def handled (state : VerbState) (line : Line) : Handled :=
  ⟨state.item line, (state.handle line).2⟩

namespace Handled

def isHeader (line : Handled) : Bool :=
  match line.item with
  | .header _ => true
  | _ => false

/-- The verb of a line, if the line is a verb line that can be taken apart. -/
def verb? (line : Handled) : Option String :=
  match line.item with
  | .verb text _ => (readVerbLine text).toOption.map fun verbLine => String.ofList verbLine.verb
  | _ => none

theorem verb?_of_isHeader {line : Handled} (header : line.isHeader) : line.verb? = none := by
  unfold isHeader at header
  split at header
  next item => simp [verb?, item]
  next => cases header

/-- The verb of a line that is accepted. -/
def acceptedVerb? (line : Handled) : Option String :=
  if line.skip? = none then line.verb? else none

/-- Lines block by block: they are cut at the headers, and no header opens the first block. -/
def blocks (lines : List Handled) : List (List Handled) :=
  lines.splitOnP isHeader

/-- The lines of the block that is still open at the end. -/
def openBlock (lines : List Handled) : List Handled :=
  (blocks lines).getLastD []

/-- The blocks that a header has ended. -/
def closedBlocks (lines : List Handled) : List (List Handled) :=
  (blocks lines).dropLast

/-- The block around a place between lines. -/
def blockAround (above below : List Handled) : List Handled :=
  openBlock above ++ below.takeWhile fun line => !line.isHeader

/-- The primary of a block is its first accepted verb. -/
def primary? (block : List Handled) : Option String :=
  block.findSome? acceptedVerb?

/-- The first verb of the latest block that has one. -/
def latestVerb? (blocks : List (List Handled)) : Option String :=
  blocks.reverse.findSome? fun block => block.findSome? verb?

theorem blocks_eq (lines : List Handled) :
    blocks lines = closedBlocks lines ++ [openBlock lines] := by
  obtain ⟨closed, current, cut⟩ :=
    (List.eq_nil_or_concat' (blocks lines)).resolve_left (List.splitOnP_ne_nil _ _)
  simp [closedBlocks, openBlock, cut]

/-- A header ends the open block. -/
theorem blocks_concat_header (lines : List Handled) {line : Handled} (header : line.isHeader) :
    blocks (lines ++ [line]) = blocks lines ++ [[]] :=
  List.splitOnP_append_cons lines [] header

/-- Any other line belongs to the open block. The cut is given, so that the induction can go through
the lines from the first one, as the cutting does. -/
theorem blocks_concat {lines : List Handled} {line : Handled} (noHeader : line.isHeader = false)
    {closed : List (List Handled)} {current : List Handled}
    (cut : blocks lines = closed ++ [current]) :
    blocks (lines ++ [line]) = closed ++ [current ++ [line]] := by
  unfold blocks at cut ⊢
  induction lines generalizing closed current with
  | nil =>
    obtain ⟨rfl, rfl⟩ : [] = closed ∧ [] = current := List.append_singleton_inj.mp cut
    simp [List.splitOnP_cons_eq_if_modifyHead, noHeader]
  | cons first rest inductionHypothesis =>
    obtain ⟨front, last, restCut⟩ :=
      (List.eq_nil_or_concat' (rest.splitOnP isHeader)).resolve_left (List.splitOnP_ne_nil _ _)
    rw [List.splitOnP_cons_eq_if_modifyHead, restCut] at cut
    rw [List.cons_append, List.splitOnP_cons_eq_if_modifyHead, inductionHypothesis restCut]
    by_cases header : first.isHeader = true
    · rw [if_pos header] at cut ⊢
      obtain ⟨rfl, rfl⟩ : [] :: front = closed ∧ last = current :=
        List.append_singleton_inj.mp cut
      rfl
    · rw [if_neg header] at cut ⊢
      cases front with
      | nil =>
        obtain ⟨rfl, rfl⟩ : [] = closed ∧ first :: last = current :=
          List.append_singleton_inj.mp cut
        rfl
      | cons head tail =>
        obtain ⟨rfl, rfl⟩ : (first :: head) :: tail = closed ∧ last = current :=
          List.append_singleton_inj.mp cut
        rfl

theorem openBlock_concat_header (lines : List Handled) {line : Handled} (header : line.isHeader) :
    openBlock (lines ++ [line]) = [] := by
  simp [openBlock, blocks_concat_header lines header]

theorem openBlock_concat (lines : List Handled) {line : Handled}
    (noHeader : line.isHeader = false) :
    openBlock (lines ++ [line]) = openBlock lines ++ [line] := by
  simp [openBlock, blocks_concat noHeader (blocks_eq lines)]

/-! ### Primaries -/

/-- A block that has a verb hides the blocks before it. -/
theorem latestVerb?_concat (blocks : List (List Handled)) (block : List Handled) :
    latestVerb? (blocks ++ [block]) = (block.findSome? verb?).or (latestVerb? blocks) := by
  rw [latestVerb?, List.reverse_append, List.findSome?_append, latestVerb?]
  simp

/-- A search for verbs of a kind ends at the first verb that can be read if this one is of the kind,
whatever comes below. -/
theorem findSome?_eq_verb? {value? : Handled → Option String} {block : List Handled}
    {first : Handled} (found : block.find? (·.verb?.isSome) = some first)
    (onlyVerbs : ∀ line, line.verb? = none → value? line = none)
    (isKind : value? first = first.verb?) (below : List Handled) :
    (block ++ below).findSome? value? = first.verb? := by
  obtain ⟨isVerb, front, back, rfl, earlier⟩ := List.find?_eq_some_iff_append.mp found
  have none : ∀ line ∈ front, value? line = none := by
    intro line member
    exact onlyVerbs line (by simpa using earlier line member)
  obtain ⟨verb, named⟩ := Option.isSome_iff_exists.mp isVerb
  rw [List.append_assoc, List.findSome?_append, List.findSome?_eq_none_iff.mpr none,
    List.cons_append, List.findSome?_cons, isKind, named]
  rfl

/-- If the first verb that can be read is accepted, it is the primary of its block. -/
theorem primary?_append {block : List Handled} {first : Handled}
    (found : block.find? (·.verb?.isSome) = some first) (accepted : first.skip? = none)
    (below : List Handled) : primary? (block ++ below) = first.verb? := by
  refine findSome?_eq_verb? found (fun line noVerb => ?_) ?_ below
  · simp [acceptedVerb?, noVerb]
  · rw [acceptedVerb?, if_pos accepted]

end Handled

/-- The primary of a block is the verb of its line. -/
theorem anchor_primary? (state : VerbState) (line : Line) :
    (state.primary? line).map (·.anchor) =
      if state.awaitingPrimary ∨ state.anchor = none then (state.handled line).verb? else none := by
  unfold primary? handled Handled.verb?
  cases state.item line with
  | verb text code? =>
    dsimp only
    split
    next =>
      rw [Option.map_map]
      rfl
    next => rfl
  | _ => simp

theorem isSome_openedBlock? (state : VerbState) (line : Line) :
    (state.openedBlock? line).isSome = (state.handled line).isHeader := by
  unfold openedBlock? handled Handled.isHeader
  cases state.item line <;> rfl

/-- What a state keeps of the blocks of the lines above: whether the open block still awaits its
primary, which it does as long as no verb in it could be read, and the first verb of the latest
block that has one. -/
structure Follows (state : VerbState) (above : List Handled) : Prop where
  awaitingPrimary : state.awaitingPrimary =
    ((Handled.openBlock above).findSome? Handled.verb?).isNone
  anchor : state.anchor = Handled.latestVerb? (Handled.blocks above)

theorem Follows.handle {state : VerbState} {above : List Handled} (follows : state.Follows above)
    (line : Line) : (state.handle line).1.Follows (above ++ [state.handled line]) := by
  have awaiting := follows.awaitingPrimary
  have anchor := follows.anchor
  rw [Handled.blocks_eq, Handled.latestVerb?_concat] at anchor
  have primary := state.anchor_primary? line
  cases header : (state.handled line).isHeader with
  | true =>
    have noVerb : (state.handled line).verb? = none := Handled.verb?_of_isHeader header
    constructor
    · rw [fst_handle, Handled.openBlock_concat_header _ header]
      simp [isSome_openedBlock?, header]
    · rw [fst_handle, Handled.blocks_concat_header _ header, Handled.latestVerb?_concat]
      simp [anchorAfter, primary, noVerb, follows.anchor]
  | false =>
    have cut := Handled.blocks_concat header (Handled.blocks_eq above)
    have noHeader := (state.isSome_openedBlock? line).trans header
    -- the verb of the line counts only if it is the first one of the block
    cases own : (Handled.openBlock above).findSome? Handled.verb? with
    | none =>
      rw [own] at awaiting anchor
      rw [if_pos (.inl awaiting)] at primary
      constructor
      · rw [fst_handle, Handled.openBlock_concat _ header, List.findSome?_append, own]
        simp [noHeader, awaiting, ← primary]
      · rw [fst_handle, cut, Handled.latestVerb?_concat, List.findSome?_append, own]
        simp [anchorAfter, primary, anchor]
    | some verb =>
      rw [own] at awaiting anchor
      rw [if_neg (by simp [awaiting, anchor])] at primary
      constructor
      · rw [fst_handle, Handled.openBlock_concat _ header, List.findSome?_append, own]
        simp [noHeader, awaiting]
      · rw [fst_handle, cut, Handled.latestVerb?_concat, List.findSome?_append, own]
        simp [anchorAfter, primary, anchor]

theorem follows_run (lines : List Line) :
    (start.run lines).Follows (start.trace handled lines) := by
  induction lines using List.reverseRecOn with
  | nil => exact ⟨rfl, rfl⟩
  | append_singleton front line inductionHypothesis =>
    rw [run_append, trace_append]
    exact inductionHypothesis.handle line

end VerbState

/-! ### The anchors of patterns -/

namespace VerbDictionary

open VerbState

/-- A pattern is stored under its path, which starts at its anchor. Its anchor is the first verb
that could be read in its block above it, which is the primary of the block if it was accepted. If
there is none, the anchor is the primary of an earlier block. -/
theorem pattern_anchor (file : String) {script : Script} {above below : List Line} {line : Line}
    {pattern : Pattern} (here : script.lines = above ++ line :: below)
    (stored : (start.run above).pattern? line = some pattern) :
    let before := start.trace handled above
    let after := (start.run above).trace handled (line :: below)
    pattern.entry ∈ (compile file script).dictionary.patterns.find pattern.path ∧
      pattern.path.head? = some (.root pattern.anchor) ∧ pattern.entry.anchor = pattern.anchor ∧
      (∀ first, (Handled.openBlock before).find? (·.verb?.isSome) = some first →
        first.verb? = some pattern.anchor ∧
          (first.skip? = none →
            Handled.primary? (Handled.blockAround before after) = some pattern.anchor)) ∧
      ((Handled.openBlock before).find? (·.verb?.isSome) = none →
        Handled.latestVerb? (Handled.closedBlocks before) = some pattern.anchor) := by
  intro before after
  have follows : (start.run above).Follows before := follows_run above
  obtain ⟨anchor, -⟩ := pattern?_eq_some stored
  have blocks := follows.anchor
  rw [anchor, Handled.blocks_eq, Handled.latestVerb?_concat] at blocks
  have isPattern : pattern ∈ patternsOf script :=
    mem_patternsOf_iff.mpr ⟨above, line, below, here, stored⟩
  refine ⟨mem_find_path file isPattern, by simp [Pattern.path], rfl, ?_, ?_⟩
  · intro first found
    have firstVerb := Handled.findSome?_eq_verb? found (fun _ => id) rfl []
    rw [List.append_nil] at firstVerb
    have isVerb := List.find?_some found
    have named : first.verb? = some pattern.anchor := by
      rw [blocks, firstVerb, Option.or_of_isSome isVerb]
    refine ⟨named, fun accepted => ?_⟩
    rw [Handled.blockAround, Handled.primary?_append found accepted, named]
  · intro noVerb
    have none : (Handled.openBlock before).findSome? Handled.verb? = none := by
      simpa using noVerb
    rw [blocks, none, Option.none_or]

/-- Two blocks with a pattern in each. The second block has no verb. -/
def grantScript : Script where
  lines := List.mapIdx (fun index text => ⟨index + 1, text.toList⟩)
    ["--- A [010]", "GRANT", "- * LOAN [011]", "--- B [020]", "- * AID [021]"]
  failedAfter := none

/-- The pattern behind the verb of its block stays in the block. -/
theorem loan_in_block :
    ∃ pattern, (start.run (grantScript.lines.take 2)).pattern? ⟨3, "- * LOAN [011]".toList⟩ =
        some pattern ∧
      Handled.primary? (Handled.blockAround (start.trace handled (grantScript.lines.take 2))
        ((start.run (grantScript.lines.take 2)).trace handled (grantScript.lines.drop 2))) =
          some pattern.anchor := by
  have isPattern : ((start.run (grantScript.lines.take 2)).pattern?
      ⟨3, "- * LOAN [011]".toList⟩).isSome := by
    decide +kernel
  obtain ⟨pattern, stored⟩ := Option.isSome_iff_exists.mp isPattern
  have found : (Handled.openBlock (start.trace handled (grantScript.lines.take 2))).find?
      (·.verb?.isSome) = some ⟨.verb "GRANT".toList none, none⟩ := by
    decide +kernel
  have here : grantScript.lines = grantScript.lines.take 2 ++
      ⟨3, "- * LOAN [011]".toList⟩ :: grantScript.lines.drop 3 := by
    decide +kernel
  obtain ⟨-, -, -, inBlock, -⟩ := pattern_anchor "verbs" here stored
  exact ⟨pattern, stored, (inBlock _ found).2 rfl⟩

/-- The pattern in the block without a verb is stored under the verb of the block before. -/
theorem aid_outside_block :
    ∃ pattern, (start.run (grantScript.lines.take 4)).pattern? ⟨5, "- * AID [021]".toList⟩ =
        some pattern ∧
      pattern.anchor = "GRANT" ∧
      Handled.primary? (Handled.blockAround (start.trace handled (grantScript.lines.take 4))
        ((start.run (grantScript.lines.take 4)).trace handled (grantScript.lines.drop 4))) ≠
          some pattern.anchor := by
  have isPattern : ((start.run (grantScript.lines.take 4)).pattern?
      ⟨5, "- * AID [021]".toList⟩).map (·.anchor) = some "GRANT" := by
    decide +kernel
  obtain ⟨pattern, stored, anchor⟩ := Option.map_eq_some_iff.mp isPattern
  refine ⟨pattern, stored, anchor, ?_⟩
  rw [anchor]
  decide +kernel

end VerbDictionary

end Codebook
