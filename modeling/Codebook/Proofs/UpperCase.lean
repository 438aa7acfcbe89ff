/-
This file says what upper case leaves as it is. The partners of letters outside ASCII lie outside
ASCII as well, but for a few that are capitals of it, and so does what the others are expanded to.
Main statements: a character of ASCII that is no letter occurs in the upper case of a text exactly
if it occurs in the text (`Text.mem_upperChars_iff`), white space stays what it is and nothing else
becomes white space (`Text.isSpace_of_mem_upperChar`), and what is in upper case stays as it is
(`Text.upperChars_upperChars`).
-/

import Codebook.Text.Case
import Codebook.Text.Space
import Mathlib.Data.List.Chain

namespace Codebook.Text

/-! ### The cases of the mapping -/

/-- What holds of the characters of ASCII, of the letters on stretches, of those that are expanded
and of the characters outside ASCII that are their own upper case holds of all characters. -/
theorem upperChar_cases (Holds : Char → List Char → Prop)
    (ofAscii : ∀ code < 128, Holds (Char.ofNat code) [(Char.ofNat code).toUpper])
    (ofStretch : ∀ stretch ∈ upperStretches, ∀ c : Char, 128 ≤ c.toNat →
      stretch.covers c.toNat → Holds c [Char.ofNat (stretch.partner c.toNat)])
    (ofExpansion : ∀ expansion ∈ upperExpansions, ∀ c : Char, 128 ≤ c.toNat →
      expansion.1 = c.toNat → Holds c (expansion.2.map Char.ofNat))
    (ofSelf : ∀ c : Char, 128 ≤ c.toNat → upperChar c = [c] → Holds c [c]) (c : Char) :
    Holds c (upperChar c) := by
  by_cases isAscii : c.toNat < 128
  · rw [upperChar_of_ascii isAscii]
    have holds := ofAscii c.toNat isAscii
    rwa [Char.ofNat_toNat] at holds
  · have foreign := Nat.le_of_not_lt isAscii
    have mapped : upperChar c = mapCase upperStretches upperExpansions c := by
      rw [upperChar, if_neg isAscii]
    have ofSelf := ofSelf c foreign
    rw [mapped] at ofSelf ⊢
    unfold mapCase at ofSelf ⊢
    split at ofSelf
    next stretch isFound =>
      have onStretch : stretch.covers c.toNat = true := by simpa using List.find?_some isFound
      exact ofStretch stretch (List.mem_of_find?_eq_some isFound) c foreign onStretch
    next =>
      split at ofSelf
      next codes isFound =>
        have same := List.find?_some isFound
        exact ofExpansion _ (List.mem_of_find?_eq_some isFound) c foreign (by simpa using same)
      next => exact ofSelf rfl

/-- The letters of a stretch lie between its ends, and their partners between the partners of these.
-/
structure CaseStretch.Spans (stretch : CaseStretch) (code : Nat) : Prop where
  fromFirst : stretch.first ≤ code
  toLast : code ≤ stretch.last
  steps : (code - stretch.first) % stretch.step = 0
  fromPartner : stretch.partner stretch.first ≤ stretch.partner code
  toPartner : stretch.partner code ≤ stretch.partner stretch.last

theorem CaseStretch.spans {stretch : CaseStretch} {code : Nat} (onStretch : stretch.covers code) :
    stretch.Spans code := by
  simp only [covers, Bool.and_eq_true, decide_eq_true_eq, beq_iff_eq] at onStretch
  obtain ⟨⟨above, below⟩, steps⟩ := onStretch
  refine ⟨above, below, steps, ?_, ?_⟩ <;> simp only [partner] <;> omega

/-- The partners of a stretch are characters. -/
theorem partner_valid : ∀ stretch ∈ upperStretches, stretch.partner stretch.last < 0xD800 ∨
    0xDFFF < stretch.partner stretch.first ∧ stretch.partner stretch.last < 0x110000 := by
  decide +kernel

theorem toNat_partner {stretch : CaseStretch} (member : stretch ∈ upperStretches) {code : Nat}
    (spans : stretch.Spans code) :
    (Char.ofNat (stretch.partner code)).toNat = stretch.partner code := by
  have valid := partner_valid stretch member
  obtain ⟨-, -, -, fromPartner, toPartner⟩ := spans
  have isValid : (stretch.partner code).isValidChar := by
    simp only [Nat.isValidChar]
    omega
  rw [Char.ofNat, dif_pos isValid]
  rfl

/-- No partner is a character of ASCII other than a capital. -/
theorem partner_bounds : ∀ stretch ∈ upperStretches, 128 ≤ stretch.partner stretch.first ∨
    stretch.first = stretch.last ∧ (Char.ofNat (stretch.partner stretch.first)).isUpper := by
  decide +kernel

/-- A partner lies outside ASCII, or it is a capital. -/
theorem partner_cases {stretch : CaseStretch} (member : stretch ∈ upperStretches) {code : Nat}
    (spans : stretch.Spans code) :
    128 ≤ stretch.partner code ∨ (Char.ofNat (stretch.partner code)).isUpper := by
  obtain ⟨fromFirst, toLast, -, fromPartner, -⟩ := spans
  rcases partner_bounds stretch member with foreign | ⟨single, isCapital⟩
  · exact .inl (Nat.le_trans foreign fromPartner)
  · obtain rfl : code = stretch.first := by omega
    exact .inr isCapital

theorem upperChar_ne_nil (c : Char) : upperChar c ≠ [] := by
  have expands : ∀ expansion ∈ upperExpansions, expansion.2 ≠ [] := by decide +kernel
  refine upperChar_cases (fun _ text => text ≠ []) ?_ ?_ ?_ ?_ c
  · exact fun _ _ => List.cons_ne_nil _ _
  · exact fun _ _ _ _ _ => List.cons_ne_nil _ _
  · exact fun expansion member _ _ _ none => expands expansion member (List.map_eq_nil_iff.mp none)
  · exact fun _ _ _ => List.cons_ne_nil _ _

/-! ### Marks -/

/-- In ASCII only letters have another upper case, and it is a letter. -/
theorem toUpper_of_ascii : ∀ code < 128, (Char.ofNat code).toUpper = Char.ofNat code ∨
    (Char.ofNat code).isAlpha ∧ (Char.ofNat code).toUpper.isAlpha := by
  decide +kernel

theorem expansion_bounds : ∀ expansion ∈ upperExpansions, ∀ code ∈ expansion.2,
    128 ≤ (Char.ofNat code).toNat ∨ (Char.ofNat code).isAlpha := by
  decide +kernel

/-- Nothing but itself has a character of ASCII that is no letter in its upper case. -/
theorem mem_upperChar_iff {mark : Char} (ascii : mark.toNat < 128) (noLetter : ¬ mark.isAlpha)
    {c : Char} : mark ∈ upperChar c ↔ c = mark := by
  have ne_mark {d : Char} (other : 128 ≤ d.toNat ∨ d.isAlpha) : d ≠ mark := by
    rintro rfl
    exact other.elim (Nat.not_le_of_lt ascii) noLetter
  refine upperChar_cases (fun c text => mark ∈ text ↔ c = mark) ?_ ?_ ?_ ?_ c
  · intro code isAscii
    rw [List.mem_singleton]
    rcases toUpper_of_ascii code isAscii with same | ⟨isLetter, upperIsLetter⟩
    · rw [same]
      exact eq_comm
    · exact iff_of_false (ne_mark (.inr upperIsLetter)).symm (ne_mark (.inr isLetter))
  · intro stretch member c foreign onStretch
    rw [List.mem_singleton]
    refine iff_of_false (ne_mark ?_).symm (ne_mark (.inl foreign))
    have spans := CaseStretch.spans onStretch
    rw [toNat_partner member spans]
    exact (partner_cases member spans).imp_right fun isCapital =>
      Bool.or_eq_true_iff.mpr (.inl isCapital)
  · intro expansion member c foreign _
    refine iff_of_false (fun inImage => ?_) (ne_mark (.inl foreign))
    obtain ⟨code, inCodes, same⟩ := List.mem_map.mp inImage
    exact ne_mark (expansion_bounds expansion member code inCodes) same
  · intro c _ _
    rw [List.mem_singleton]
    exact eq_comm

theorem mem_upperChars_iff {mark : Char} (ascii : mark.toNat < 128) (noLetter : ¬ mark.isAlpha)
    {text : List Char} : mark ∈ upperChars text ↔ mark ∈ text := by
  simp [upperChars, mem_upperChar_iff ascii noLetter]

theorem upperChar_of_mark {mark : Char} (ascii : mark.toNat < 128) (noLetter : ¬ mark.isAlpha) :
    upperChar mark = [mark] := by
  have upper := toUpper_of_ascii mark.toNat ascii
  rw [Char.ofNat_toNat] at upper
  rw [upperChar_of_ascii ascii, upper.resolve_right fun letters => noLetter letters.1]

/-- A text starts with such a character in upper case exactly if it does so itself. -/
theorem head?_upperChars_eq_some_iff {mark : Char} (ascii : mark.toNat < 128)
    (noLetter : ¬ mark.isAlpha) {text : List Char} :
    (upperChars text).head? = some mark ↔ text.head? = some mark := by
  cases text with
  | nil => rfl
  | cons c rest =>
    have isFirst : (upperChars (c :: rest)).head? = (upperChar c).head? := by
      rw [upperChars, List.flatMap_cons]
      exact List.head?_append_of_ne_nil _ (upperChar_ne_nil c)
    rw [isFirst, List.head?_cons, Option.some.injEq]
    constructor
    · exact fun starts => (mem_upperChar_iff ascii noLetter).mp (List.mem_of_head? starts)
    · rintro rfl
      rw [upperChar_of_mark ascii noLetter]
      rfl

theorem upperChars_eq_nil_iff {text : List Char} : upperChars text = [] ↔ text = [] := by
  rw [upperChars, List.flatMap_eq_nil_iff]
  refine ⟨fun none => ?_, by rintro rfl _ member; cases member⟩
  cases text with
  | nil => rfl
  | cons c rest => exact absurd (none c List.mem_cons_self) (upperChar_ne_nil c)

/-- In upper case a text ends with what its last character becomes. -/
theorem exists_getLast?_upperChars {text : List Char} {last : Char}
    (isLast : text.getLast? = some last) :
    ∃ d ∈ upperChar last, (upperChars text).getLast? = some d := by
  obtain ⟨front, rfl⟩ := List.getLast?_eq_some_iff.mp isLast
  have nonempty := upperChar_ne_nil last
  refine ⟨_, List.getLast_mem nonempty, ?_⟩
  rw [upperChars, List.flatMap_append, List.flatMap_singleton,
    List.getLast?_append_of_ne_nil _ nonempty, List.getLast?_eq_getLast_of_ne_nil nonempty]

/-- A text is such a character in upper case exactly if it is this character itself. -/
theorem upperChars_eq_singleton_iff {mark : Char} (ascii : mark.toNat < 128)
    (noLetter : ¬ mark.isAlpha) {text : List Char} : upperChars text = [mark] ↔ text = [mark] := by
  constructor
  · intro single
    cases text with
    | nil => cases single
    | cons c rest =>
      rw [upperChars, List.flatMap_cons, List.append_eq_singleton_iff] at single
      obtain ⟨none, -⟩ | ⟨isMark, noMore⟩ := single
      · exact absurd none (upperChar_ne_nil c)
      · obtain rfl : c = mark :=
          (mem_upperChar_iff ascii noLetter).mp (isMark ▸ List.mem_cons_self)
        rw [upperChars_eq_nil_iff.mp noMore]
  · rintro rfl
    rw [upperChars, List.flatMap_singleton, upperChar_of_mark ascii noLetter]

/-! ### White space -/

/-- Whether no white space has a code from `low` to `high`. -/
def IsSpaceless (low high : Nat) : Prop :=
  0x20 < low ∧ high < 0x85 ∨ 0xA0 < low ∧ high < 0x1680 ∨ 0x1680 < low ∧ high < 0x2000 ∨
    0x205F < low ∧ high < 0x3000 ∨ 0x3000 < low

instance (low high : Nat) : Decidable (IsSpaceless low high) :=
  inferInstanceAs (Decidable (_ ∨ _))

theorem IsSpaceless.isSpace {low high : Nat} (spaceless : IsSpaceless low high) {c : Char}
    (fromLow : low ≤ c.toNat) (toHigh : c.toNat ≤ high) : isSpace c = false := by
  unfold IsSpaceless at spaceless
  simp only [Text.isSpace, Bool.or_eq_false_iff, Bool.and_eq_false_iff, decide_eq_false_iff_not,
    beq_eq_false_iff_ne]
  omega

/-- Neither the letters of a stretch nor their partners are white space. -/
theorem stretch_spaceless : ∀ stretch ∈ upperStretches, IsSpaceless stretch.first stretch.last ∧
    IsSpaceless (stretch.partner stretch.first) (stretch.partner stretch.last) := by
  decide +kernel

theorem expansion_spaceless : ∀ expansion ∈ upperExpansions,
    IsSpaceless expansion.1 expansion.1 ∧
      ∀ code ∈ expansion.2, isSpace (Char.ofNat code) = false := by
  decide +kernel

theorem isSpace_toUpper_of_ascii : ∀ code < 128,
    isSpace (Char.ofNat code).toUpper = isSpace (Char.ofNat code) := by
  decide +kernel

/-- White space stays white space, and nothing else becomes white space. -/
theorem isSpace_of_mem_upperChar {c d : Char} (member : d ∈ upperChar c) :
    isSpace d = isSpace c := by
  refine upperChar_cases (fun c text => ∀ d ∈ text, isSpace d = isSpace c) ?_ ?_ ?_ ?_ c d member
  · intro code isAscii
    rw [List.forall_mem_singleton]
    exact isSpace_toUpper_of_ascii code isAscii
  · intro stretch member c _ onStretch
    have spans := CaseStretch.spans onStretch
    obtain ⟨letters, partners⟩ := stretch_spaceless stretch member
    have code := toNat_partner member spans
    rw [List.forall_mem_singleton, letters.isSpace spans.fromFirst spans.toLast]
    refine partners.isSpace ?_ ?_
    · rw [code]
      exact spans.fromPartner
    · rw [code]
      exact spans.toPartner
  · intro expansion member c _ same d inImage
    obtain ⟨letter, images⟩ := expansion_spaceless expansion member
    obtain ⟨code, inCodes, rfl⟩ := List.mem_map.mp inImage
    rw [images code inCodes, letter.isSpace (Nat.le_of_eq same) (Nat.le_of_eq same.symm)]
  · intro c _ _
    rw [List.forall_mem_singleton]

theorem toUpper_of_isSpace : ∀ code < 128, isSpace (Char.ofNat code) →
    (Char.ofNat code).toUpper = Char.ofNat code := by
  decide +kernel

theorem upperChar_of_isSpace {c : Char} : isSpace c → upperChar c = [c] := by
  refine upperChar_cases (fun c text => isSpace c → text = [c]) ?_ ?_ ?_ ?_ c
  · intro code isAscii isBlank
    rw [toUpper_of_isSpace code isAscii isBlank]
  · intro stretch member c _ onStretch isBlank
    have spans := CaseStretch.spans onStretch
    rw [(stretch_spaceless stretch member).1.isSpace spans.fromFirst spans.toLast] at isBlank
    cases isBlank
  · intro expansion member c _ same isBlank
    rw [(expansion_spaceless expansion member).1.isSpace (Nat.le_of_eq same)
      (Nat.le_of_eq same.symm)] at isBlank
    cases isBlank
  · exact fun _ _ _ _ => rfl

/-! ### Upper case of upper case -/

namespace CaseStretch

/-- Whether a stretch ends before another one starts. -/
def Precedes (left right : CaseStretch) : Prop :=
  left.first ≤ left.last ∧ left.last < right.first

instance : DecidableRel Precedes := fun _ _ => inferInstanceAs (Decidable (_ ∧ _))

instance : IsTrans CaseStretch Precedes where
  trans left middle right := by
    rintro ⟨ordered, before⟩ ⟨ordered', before'⟩
    exact ⟨ordered, Nat.lt_trans (Nat.lt_of_lt_of_le before ordered') before'⟩

/-- Whether no stretch of an ascending list covers one of the codes `low`, `low + step`, and so on
up to `high`. Alternating letters may lie between the codes. -/
def spare (low high step : Nat) : List CaseStretch → Bool
  | [] => true
  | stretch :: rest =>
    bif stretch.last.blt low then spare low high step rest
    else high.blt stretch.first ||
      stretch.step.beq 2 && (low.beq high || step.beq 2) && ((low + stretch.first) % 2).beq 1 &&
        spare low high step rest

theorem not_covers_of_spare {low high step code : Nat} (fromLow : low ≤ code)
    (toHigh : code ≤ high) (steps : (code - low) % step = 0) {stretches : List CaseStretch}
    (ascend : stretches.Pairwise Precedes) (spared : spare low high step stretches) :
    ∀ stretch ∈ stretches, stretch.covers code = false := by
  have not_covers {stretch : CaseStretch} (apart : ¬ stretch.Spans code) :
      stretch.covers code = false := by
    rw [← Bool.not_eq_true]
    exact fun onStretch => apart (spans onStretch)
  induction stretches with
  | nil => exact fun _ member => absurd member List.not_mem_nil
  | cons stretch rest inductionHypothesis =>
    obtain ⟨before, restAscend⟩ := List.pairwise_cons.mp ascend
    rw [spare] at spared
    cases ends : stretch.last.blt low with
    | true =>
      rw [ends, cond_true] at spared
      refine List.forall_mem_cons.mpr ⟨not_covers fun onStretch => ?_,
        inductionHypothesis restAscend spared⟩
      have endsBefore := Nat.blt_eq.mp ends
      have toLast := onStretch.toLast
      omega
    | false =>
      simp only [ends, cond_false, Bool.or_eq_true, Bool.and_eq_true, Nat.blt_eq,
        Nat.beq_eq] at spared
      rcases spared with behind | ⟨⟨⟨alternates, sameStep⟩, odd⟩, restSpared⟩
      · have behindAll : ∀ other ∈ stretch :: rest, high < other.first := by
          refine List.forall_mem_cons.mpr ⟨behind, fun other member => ?_⟩
          obtain ⟨ordered, later⟩ := before other member
          omega
        intro other member
        refine not_covers fun onStretch => ?_
        exact absurd (Nat.le_trans onStretch.fromFirst toHigh)
          (Nat.not_le_of_lt (behindAll other member))
      · refine List.forall_mem_cons.mpr ⟨not_covers fun onStretch => ?_,
          inductionHypothesis restAscend restSpared⟩
        have even : (code - low) % 2 = 0 := by
          rcases sameStep with single | sourceTwo
          · omega
          · rwa [sourceTwo] at steps
        have fromFirst := onStretch.fromFirst
        have evenToo := onStretch.steps
        rw [alternates] at evenToo
        omega

/-- The partners of a stretch are as far apart as its letters. -/
theorem partner_sub {stretch : CaseStretch} (member : stretch ∈ upperStretches) {code : Nat}
    (fromFirst : stretch.first ≤ code) :
    stretch.partner code - stretch.partner stretch.first = code - stretch.first := by
  have positive : ∀ stretch ∈ upperStretches, 0 ≤ stretch.first + stretch.distance := by
    decide +kernel
  have positive := positive stretch member
  simp only [partner]
  omega

end CaseStretch

/-- The letters that are expanded, each as a stretch of its own. -/
def expandedLetters : List CaseStretch :=
  upperExpansions.map fun expansion => ⟨expansion.1, expansion.1, 1, 0⟩

theorem stretches_ascend : upperStretches.IsChain CaseStretch.Precedes := by
  decide +kernel

theorem expandedLetters_ascend : expandedLetters.IsChain CaseStretch.Precedes := by
  decide +kernel

/-- No partner of a letter has a partner or is expanded. -/
theorem partner_spared : ∀ stretch ∈ upperStretches, ∀ table ∈ [upperStretches, expandedLetters],
    CaseStretch.spare (stretch.partner stretch.first) (stretch.partner stretch.last) stretch.step
      table := by
  decide +kernel

theorem expansion_settled : ∀ expansion ∈ upperExpansions, ∀ code ∈ expansion.2,
    upperChar (Char.ofNat code) = [Char.ofNat code] := by
  decide +kernel

theorem ascii_settled : ∀ code < 128,
    upperChar (Char.ofNat code).toUpper = [(Char.ofNat code).toUpper] := by
  decide +kernel

theorem toNat_of_isUpper {c : Char} (isCapital : c.isUpper) : 65 ≤ c.toNat ∧ c.toNat ≤ 90 := by
  obtain ⟨fromFirst, toLast⟩ := of_decide_eq_true isCapital
  exact ⟨UInt32.le_iff_toNat_le.mp fromFirst, UInt32.le_iff_toNat_le.mp toLast⟩

theorem isSpace_of_isUpper {c : Char} (isCapital : c.isUpper) : isSpace c = false :=
  have ⟨fromFirst, toLast⟩ := toNat_of_isUpper isCapital
  IsSpaceless.isSpace (by decide) fromFirst toLast

theorem upperChar_of_isUpper {c : Char} (isCapital : c.isUpper) : upperChar c = [c] := by
  have capitals : ∀ code < 128, (Char.ofNat code).isUpper →
      (Char.ofNat code).toUpper = Char.ofNat code := by
    decide +kernel
  have ascii : c.toNat < 128 := Nat.lt_of_le_of_lt (toNat_of_isUpper isCapital).2 (by decide)
  have same := capitals c.toNat ascii
  rw [Char.ofNat_toNat] at same
  rw [upperChar_of_ascii ascii, same isCapital]

/-- A partner has no partner itself. -/
theorem upperChar_partner {stretch : CaseStretch} (member : stretch ∈ upperStretches) {code : Nat}
    (spans : stretch.Spans code) :
    upperChar (Char.ofNat (stretch.partner code)) = [Char.ofNat (stretch.partner code)] := by
  have isCode := toNat_partner member spans
  rcases partner_cases member spans with foreign | isCapital
  · have steps : (stretch.partner code - stretch.partner stretch.first) % stretch.step = 0 := by
      rw [CaseStretch.partner_sub member spans.fromFirst, spans.steps]
    have missed {table : List CaseStretch} (isTable : table ∈ [upperStretches, expandedLetters])
        (ascend : table.IsChain CaseStretch.Precedes) :
        ∀ target ∈ table, target.covers (stretch.partner code) = false :=
      CaseStretch.not_covers_of_spare spans.fromPartner spans.toPartner steps
        (List.isChain_iff_pairwise.mp ascend) (partner_spared stretch member table isTable)
    have noStretch : upperStretches.find? (·.covers (stretch.partner code)) = none := by
      rw [List.find?_eq_none]
      intro target isTarget
      rw [missed (by simp) stretches_ascend target isTarget]
      exact Bool.false_ne_true
    have noExpansion : upperExpansions.find? (·.1 == stretch.partner code) = none := by
      rw [List.find?_eq_none]
      intro expansion isExpansion same
      have covered := missed (by simp) expandedLetters_ascend _ (List.mem_map_of_mem isExpansion)
      simp [CaseStretch.covers, ← eq_of_beq same] at covered
    rw [upperChar, isCode, if_neg (Nat.not_lt.mpr foreign), mapCase, isCode, noStretch, noExpansion]
  · exact upperChar_of_isUpper isCapital

/-- What is in upper case is its own upper case. -/
theorem upperChar_of_mem_upperChar {c d : Char} (member : d ∈ upperChar c) : upperChar d = [d] := by
  refine upperChar_cases (fun _ text => ∀ d ∈ text, upperChar d = [d]) ?_ ?_ ?_ ?_ c d member
  · intro code isAscii
    rw [List.forall_mem_singleton]
    exact ascii_settled code isAscii
  · intro stretch member c _ onStretch
    rw [List.forall_mem_singleton]
    exact upperChar_partner member (CaseStretch.spans onStretch)
  · intro expansion member _ _ _ d inImage
    obtain ⟨code, inCodes, rfl⟩ := List.mem_map.mp inImage
    exact expansion_settled expansion member code inCodes
  · intro c _ self
    rw [List.forall_mem_singleton]
    exact self

/-- Whether all characters of a text are their own upper case. -/
def IsUpperCase (text : List Char) : Prop :=
  ∀ c ∈ text, upperChar c = [c]

theorem isUpperCase_upperChars (text : List Char) : IsUpperCase (upperChars text) := by
  intro d member
  obtain ⟨c, -, inImage⟩ := List.mem_flatMap.mp member
  exact upperChar_of_mem_upperChar inImage

theorem IsUpperCase.upperChars_eq {text : List Char} (isUpper : IsUpperCase text) :
    upperChars text = text := by
  rw [upperChars, List.flatMap_congr isUpper, List.flatMap_singleton']

/-- Upper case of upper case is the same again. -/
theorem upperChars_upperChars (text : List Char) : upperChars (upperChars text) = upperChars text :=
  (isUpperCase_upperChars text).upperChars_eq

end Codebook.Text
