/-
This file says what is known about a surface form. Main statement: of all lines that store a word,
the first one counts. The form has its own code or that of the last header above it, and its anchor
is the first verb behind that header that can be read (`VerbDictionary.first_form_wins`). Forms are
stored when their line is handled, so the state must keep what the headers and verbs above it say.
-/

import Codebook.Proofs.LinesInOrder
import Codebook.Proofs.PatternAnchors
import Codebook.Proofs.VerbIntegrity

namespace Codebook

open Text

namespace VerbState

/-! ### Surface forms -/

/-- A multi-word form is stored as a single word if it consists of its marked word only. -/
theorem multiWordPath?_eq_formPath_iff {surface : List Char} {word : String} :
    multiWordPath? surface = some (VerbDictionary.formPath word) ↔
      runs (· == '_') surface = ['+' :: word.toList] := by
  unfold multiWordPath? VerbDictionary.formPath
  constructor
  · intro stored
    obtain ⟨⟨before, root, after⟩, found, same⟩ := Option.map_eq_some_iff.mp stored
    have length := congrArg List.length same
    simp only [List.length_append, List.length_cons, List.length_nil, List.length_map,
      List.length_reverse] at length
    obtain rfl := List.eq_nil_of_length_eq_zero (by omega : before.length = 0)
    obtain rfl := List.eq_nil_of_length_eq_zero (by omega : after.length = 0)
    obtain rfl : String.ofList root = word := by simpa using same
    rw [(splitAtMark?_eq_some_iff.mp found).1, List.nil_append, String.toList_ofList]
  · intro alone
    rw [alone]
    simp [splitAtMark?]

/-- Whether a word is among the surface forms of a verb line. A form of a multi-word verb is a word
if it consists of its marked word only. -/
def Spells (verbLine : VerbLine) (word : String) : Prop :=
  if verbLine.verb.contains '_' then
    ∃ surfaces, multiWordSurfaces verbLine = .ok surfaces ∧
      ∃ surface ∈ surfaces, runs (· == '_') surface = ['+' :: word.toList]
  else word.toList ∈ surfaces verbLine

theorem formPath_mem_formPaths_iff {verbLine : VerbLine} {word : String} :
    VerbDictionary.formPath word ∈ formPaths verbLine ↔ Spells verbLine word := by
  unfold formPaths Spells
  split
  next =>
    cases multiWordSurfaces verbLine with
    | error skip => simp
    | ok surfaces => simp [List.mem_filterMap, multiWordPath?_eq_formPath_iff]
  next =>
    have same (surface : List Char) : VerbDictionary.formPath (String.ofList surface) =
        VerbDictionary.formPath word ↔ surface = word.toList := by
      simp only [VerbDictionary.formPath, List.cons.injEq, Step.token.injEq, true_and, and_true]
      exact ⟨fun spelled => by rw [← spelled, String.toList_ofList],
        fun spelled => by rw [spelled, String.ofList_toList]⟩
    simp only [List.mem_map, same, exists_eq_right]

/-! ### What a line stores -/

/-- Whether a line stores a word as a surface form. -/
def Stores (state : VerbState) (line : Line) (word : String) : Prop :=
  ∃ text code? verbLine, state.item line = .verb text code? ∧ WritesVerb text verbLine ∧
    Spells verbLine word

namespace Handled

/-- The code that a verb line gives to its forms, if it gives one. -/
def code? (line : Handled) : Option String :=
  match line.item with
  | .verb _ code? => code?
  | _ => none

/-- The code that a header gives to its block, if the line is a header. -/
def header? (line : Handled) : Option (Option String) :=
  match line.item with
  | .header code? => some code?
  | _ => none

/-- The code of the last header, which is the null code if it has none or there is no header. -/
def blockCode (lines : List Handled) : String :=
  (lines.filterMap header?).getLast?.join.getD nullCode

/-- Whether a line is a verb line that can be read, with the given verb. -/
def Names (line : Handled) (verb : String) : Prop :=
  ∃ text code? verbLine, line.item = .verb text code? ∧ WritesVerb text verbLine ∧
    String.ofList verbLine.verb = verb

theorem verb?_eq_some_iff {line : Handled} {verb : String} :
    line.verb? = some verb ↔ line.Names verb := by
  unfold verb? Names
  cases line.item with
  | verb text code? =>
    cases read : readVerbLine text with
    | error skip => simp [← readVerbLine_eq_ok_iff, read, Except.toOption]
    | ok verbLine => simp [← readVerbLine_eq_ok_iff, read, Except.toOption]
  | _ => simp

end Handled

theorem header?_handled (state : VerbState) (line : Line) :
    (state.handled line).header? = state.openedBlock? line := by
  unfold handled Handled.header? openedBlock?
  cases state.item line <;> rfl

/-- The code of the open block is that of the last header above. -/
theorem blockCode_run (lines : List Line) :
    (start.run lines).blockCode = Handled.blockCode (start.trace handled lines) := by
  induction lines using List.reverseRecOn with
  | nil => rfl
  | append_singleton front line inductionHypothesis =>
    rw [run_append, run_cons, run_nil, fst_handle, trace_append, Handled.blockCode,
      List.filterMap_append, trace_cons, trace_nil]
    cases opened : (start.run front).openedBlock? line with
    | some code? => simp [header?_handled, opened]
    | none => simp [header?_handled, opened, inductionHypothesis, Handled.blockCode]

/-- A line stores a word exactly if it adds a form on the path of the word. -/
theorem exists_mem_formsAdded_iff {state : VerbState} {line : Line} {word : String} :
    (∃ form, (VerbDictionary.formPath word, form) ∈ state.formsAdded line) ↔
      state.Stores line word := by
  simp only [mem_formsAdded_iff, formPath_mem_formPaths_iff]
  constructor
  · rintro ⟨form, text, code?, verbLine, item, writes, spells, -⟩
    exact ⟨text, code?, verbLine, item, writes, spells⟩
  · rintro ⟨text, code?, verbLine, item, writes, spells⟩
    exact ⟨_, text, code?, verbLine, item, writes, spells, rfl⟩

/-- A form has the number of its line, and the code of the line or else that of the block. -/
theorem eq_of_mem_formsAdded {state : VerbState} {line : Line} {path : Path} {form : VerbEntry}
    (added : (path, form) ∈ state.formsAdded line) :
    form.line = line.number ∧ form.code = (state.handled line).code?.getD state.blockCode := by
  obtain ⟨text, code?, verbLine, item, -, -, rfl⟩ := mem_formsAdded_iff.mp added
  exact ⟨rfl, by simp [handled, Handled.code?, item]⟩

/-- The anchor of a form is the first verb of the block that can be read, down to the line that adds
the form. -/
theorem anchor_of_mem_formsAdded {above : List Line} {line : Line} {path : Path} {form : VerbEntry}
    (added : (path, form) ∈ (start.run above).formsAdded line) :
    (Handled.openBlock (start.trace handled (above ++ [line]))).findSome? Handled.verb? =
      some form.anchor := by
  have anchor : (start.run (above ++ [line])).anchor = some form.anchor := by
    rw [run_append, run_cons, run_nil, fst_handle]
    exact anchorAfter_of_mem_formsAdded added
  obtain ⟨text, code?, verbLine, item, writes, -⟩ := mem_formsAdded_iff.mp added
  have named : ((start.run above).handled line).verb? = some (String.ofList verbLine.verb) :=
    Handled.verb?_eq_some_iff.mpr ⟨text, code?, verbLine, item, writes, rfl⟩
  have noHeader : ((start.run above).handled line).isHeader = false := by
    by_contra header
    rw [Handled.verb?_of_isHeader (Bool.of_not_eq_false header)] at named
    cases named
  have inBlock : Handled.openBlock (start.trace handled (above ++ [line])) =
      Handled.openBlock (start.trace handled above) ++ [(start.run above).handled line] := by
    rw [trace_append, trace_cons, trace_nil, Handled.openBlock_concat _ noHeader]
  have hasVerb : ((Handled.openBlock (start.trace handled (above ++ [line]))).findSome?
      Handled.verb?).isSome := by
    rw [inBlock, List.findSome?_isSome_iff]
    exact ⟨_, List.mem_append_right _ List.mem_cons_self, by rw [named]; rfl⟩
  rw [(follows_run (above ++ [line])).anchor, Handled.blocks_eq, Handled.latestVerb?_concat,
    Option.or_of_isSome hasVerb] at anchor
  exact anchor

end VerbState

/-! ### What is known about a form -/

namespace VerbDictionary

open VerbState

/-- The line that defines a form, and what it says about it. -/
structure DefinesForm (script : Script) (above : List Line) (line : Line) (word : String)
    (form : VerbEntry) : Prop where
  stores : (start.run above).Stores line word
  earliest : ∀ earlier other later, script.lines = earlier ++ other :: later →
    (start.run earlier).Stores other word → line.number ≤ other.number
  number : form.line = line.number
  /-- The code of the line, or else that of the last header above it. -/
  code : form.code = ((start.run above).handled line).code?.getD
    (Handled.blockCode (start.trace handled above))
  /-- The first verb that can be read behind the last header, down to the line. -/
  anchor : ∃ front first back,
    Handled.openBlock (start.trace handled (above ++ [line])) = front ++ first :: back ∧
      first.Names form.anchor ∧ ∀ other ∈ front, ∀ verb, ¬ other.Names verb

variable {file : String} {script : Script}

/-- A word is no known form exactly if no line stores it. -/
theorem form?_eq_none_iff {word : String} :
    (compile file script).dictionary.form? word = none ↔
      ∀ above line below, script.lines = above ++ line :: below →
        ¬ (start.run above).Stores line (upper word) := by
  rw [form?, forms_compile, List.head?_eq_none_iff, List.eq_nil_iff_forall_not_mem]
  simp only [Trie.mem_find_insertAll, List.mem_flatten, not_exists, not_and]
  constructor
  · intro none above line below here stores
    obtain ⟨form, added⟩ := exists_mem_formsAdded_iff.mpr stores
    exact none form _ (mem_trace.mpr ⟨above, line, below, here, rfl⟩) added
  · intro none form phrases seen added
    obtain ⟨above, line, below, here, rfl⟩ := mem_trace.mp seen
    exact none above line below here (exists_mem_formsAdded_iff.mp ⟨form, added⟩)

/-- Of all lines that store a word, the one with the smallest number defines it. Its own code
counts, and else the code of the last header above it. The anchor is the first verb that can be read
in the block of the line. A word is unknown only if no line stores it. -/
theorem first_form_wins (file : String) (lines : List PhysicalLine) (word : String) :
    let script := Script.ofLines lines
    let verbs := (compile file script).dictionary
    (verbs.form? word = none ↔ ∀ above line below, script.lines = above ++ line :: below →
        ¬ (start.run above).Stores line (upper word)) ∧
      ∀ form, verbs.form? word = some form →
        ∃ above line below, script.lines = above ++ line :: below ∧
          DefinesForm script above line (upper word) form := by
  intro script verbs
  refine ⟨form?_eq_none_iff, fun form known => ?_⟩
  have found : (verbs.forms.find (formPath (upper word))).head? = some form := known
  rw [forms_compile] at found
  obtain ⟨above, line, below, here, added, noneAbove⟩ := exists_first_of_find found
  obtain ⟨ownNumber, ownCode⟩ := eq_of_mem_formsAdded added
  refine ⟨above, line, below, here, exists_mem_formsAdded_iff.mp ⟨form, added⟩, ?_, ownNumber, ?_,
    ?_⟩
  · intro earlier other later there storesToo
    rcases Script.compare_positions here there with ⟨-, between, rfl⟩ | ⟨-, rfl⟩ | larger
    · obtain ⟨otherForm, addedToo⟩ := exists_mem_formsAdded_iff.mpr storesToo
      exact absurd rfl (noneAbove earlier other between rfl _ addedToo)
    · exact Nat.le_refl _
    · exact larger.le
  · rw [ownCode, blockCode_run]
  · obtain ⟨front, first, back, block, firstVerb, noVerb⟩ :=
      List.findSome?_eq_some_iff.mp (anchor_of_mem_formsAdded added)
    refine ⟨front, first, back, block, Handled.verb?_eq_some_iff.mp firstVerb, ?_⟩
    intro other before verb otherNamed
    have unnamed := noVerb other before
    rw [Handled.verb?_eq_some_iff.mpr otherNamed] at unnamed
    cases unnamed

/-- Two blocks that share a form. In the second block, the first verb lacks its closing brace. -/
def giveLines : List PhysicalLine :=
  PhysicalLine.linesOfText (String.toList <|
    "--- GRANT [070] ---\nGRANT\nGIVE \x7bGAVE GIVEN\x7d\n" ++
      "---\nGIVE \x7bGAVE\nHAND\nGAVE [075]\n")

/-- The form has the code and the anchor of the first block. -/
theorem gave_in_first_block :
    (compile "verbs" (Script.ofLines giveLines)).dictionary.form? "gave" =
        some ⟨"GRANT", "070", 3⟩ ∧
      ∃ above line below, (Script.ofLines giveLines).lines = above ++ line :: below ∧
        DefinesForm (Script.ofLines giveLines) above line (upper "gave") ⟨"GRANT", "070", 3⟩ := by
  have known : (compile "verbs" (Script.ofLines giveLines)).dictionary.form? "gave" =
      some ⟨"GRANT", "070", 3⟩ := by
    decide +kernel
  exact ⟨known, (first_form_wins "verbs" giveLines "gave").2 _ known⟩

/-- In the second block the verb behind the unfinished one is the anchor, and there is no code. -/
example : (compile "verbs" (Script.ofLines giveLines)).dictionary.form? "handed" =
    some ⟨"HAND", nullCode, 6⟩ := by
  decide +kernel

end VerbDictionary

end Codebook
