/-
This file says which lines the bytes of a text have. The byte of a line feed stands in the UTF-8
encoding of no other character, so cutting the bytes into lines and decoding each line by itself
gives the lines of the text, and none of them is undecodable
(`PhysicalLine.linesOfBytes_toUTF8`). Lines that have ended stay as they are, whatever comes behind
them (`PhysicalLine.linesOfText_append`).
-/

import Codebook.Lines.Physical
import Codebook.Proofs.CodecRestores

namespace Codebook

namespace Text

variable {Item Code : Type}

/-! ### Lines of encoded sequences -/

/-- An item that is no break goes in front of the first line. -/
theorem linesBy_cons (isBreak : Item → Bool) (item : Item) (rest : List Item) :
    linesBy isBreak (item :: rest) =
      if isBreak item then [] :: linesBy isBreak rest
      else (item :: (linesBy isBreak rest).headD []) :: (linesBy isBreak rest).tail := by
  rw [linesBy, List.foldr_cons, ← linesBy]
  cases linesBy isBreak rest <;> rfl

/-- So does a sequence without breaks. -/
theorem linesBy_append {isBreak : Item → Bool} {part : List Item} (nonempty : part ≠ [])
    (unbroken : ∀ item ∈ part, isBreak item = false) (rest : List Item) :
    linesBy isBreak (part ++ rest) =
      (part ++ (linesBy isBreak rest).headD []) :: (linesBy isBreak rest).tail := by
  induction part with
  | nil => exact absurd rfl nonempty
  | cons item others inductionHypothesis =>
    obtain ⟨goesOn, othersUnbroken⟩ := List.forall_mem_cons.mp unbroken
    rw [List.cons_append, linesBy_cons, goesOn, if_neg Bool.false_ne_true]
    cases others with
    | nil => rfl
    | cons next others =>
      rw [inductionHypothesis (List.cons_ne_nil next others) othersUnbroken]
      rfl

/-- If breaks are encoded as breaks and everything else without any, then the lines of an encoded
sequence are its encoded lines. -/
theorem linesBy_flatMap {isBreak : Item → Bool} {isCodeBreak : Code → Bool}
    {encode : Item → List Code}
    (ofBreak : ∀ item, isBreak item = true → ∃ code, encode item = [code] ∧ isCodeBreak code = true)
    (ofOther : ∀ item, isBreak item = false →
      encode item ≠ [] ∧ ∀ code ∈ encode item, isCodeBreak code = false) (items : List Item) :
    linesBy isCodeBreak (items.flatMap encode) = (linesBy isBreak items).map (·.flatMap encode) := by
  induction items with
  | nil => rfl
  | cons item rest inductionHypothesis =>
    rw [List.flatMap_cons, linesBy_cons isBreak]
    cases breaks : isBreak item with
    | true =>
      obtain ⟨code, encoded, codeBreaks⟩ := ofBreak item breaks
      rw [encoded, List.singleton_append, linesBy_cons, if_pos codeBreaks, inductionHypothesis]
      rfl
    | false =>
      obtain ⟨nonempty, unbroken⟩ := ofOther item breaks
      rw [linesBy_append nonempty unbroken, inductionHypothesis]
      cases linesBy isBreak rest <;> simp

/-! ### Line feeds in UTF-8 -/

theorem ofNat_ne_lineFeed {code : Nat} (above : 128 ≤ code) (below : code < 256) :
    UInt8.ofNat code ≠ 10 := by
  intro same
  have equal : (UInt8.ofNat code).toNat = 10 := congrArg UInt8.toNat same
  rw [UInt8.toNat_ofNat'] at equal
  omega

/-- Of all characters only a line feed has its byte in its encoding. -/
theorem ne_lineFeed_of_mem_utf8EncodeChar {c : Char} (other : c ≠ '\n') :
    ∀ code ∈ String.utf8EncodeChar c, code ≠ 10 := by
  unfold String.utf8EncodeChar
  dsimp only
  split
  next ascii =>
    rw [List.forall_mem_singleton]
    intro same
    have equal : (UInt8.ofNat c.val.toNat).toNat = 10 := congrArg UInt8.toNat same
    rw [UInt8.toNat_ofNat'] at equal
    exact other (Char.ext (UInt32.toNat_inj.mp (show c.val.toNat = 10 by omega)))
  next =>
    -- all bytes of a longer encoding are 128 or above
    repeat' split
    all_goals
      simp only [List.forall_mem_cons, List.not_mem_nil, false_implies, implies_true, and_true]
      and_intros
    all_goals exact ofNat_ne_lineFeed (by omega) (by omega)

theorem linesBy_utf8 (text : List Char) :
    linesBy (· == 10) (text.flatMap String.utf8EncodeChar) =
      (linesBy (· == '\n') text).map (·.flatMap String.utf8EncodeChar) := by
  refine linesBy_flatMap (fun c breaks => ⟨10, ?_, rfl⟩) (fun c goesOn => ⟨?_, ?_⟩) text
  · rw [eq_of_beq breaks]
    rfl
  · exact String.utf8EncodeChar_ne_nil
  · intro code member
    rw [beq_eq_false_iff_ne]
    exact ne_lineFeed_of_mem_utf8EncodeChar (by simpa using goesOn) code member

end Text

/-! ### Physical lines -/

namespace PhysicalLine

theorem utf8_ofList (text : List Char) :
    Codec.utf8 (String.ofList text) = text.flatMap String.utf8EncodeChar := by
  simp [Codec.utf8, List.utf8Encode]

theorem ofBytes_utf8 (text : List Char) :
    ofBytes (text.flatMap String.utf8EncodeChar) = ofChars text := by
  rw [ofBytes, ← utf8_ofList, Codec.fromUTF8?_utf8]
  show ofChars (String.ofList text).toList = ofChars text
  rw [String.toList_ofList]

/-- The lines of the bytes of a text are the lines of the text. -/
theorem linesOfBytes_toUTF8 (text : String) :
    linesOfBytes text.toUTF8 = linesOfText text.toList := by
  have bytes : text.toUTF8.data.toList = text.toList.flatMap String.utf8EncodeChar := by
    rw [← utf8_ofList, String.ofList_toList]
    rfl
  rw [linesOfBytes, linesOfText, bytes, Text.linesBy_utf8, List.map_map]
  exact List.map_congr_left fun line _ => ofBytes_utf8 line

/-- A text has no undecodable line. -/
theorem undecodable_not_mem_linesOfText (text : List Char) : .undecodable ∉ linesOfText text := by
  intro member
  obtain ⟨line, -, same⟩ := List.mem_map.mp member
  cases same

/-- Lines that have ended are independent of what comes behind them. -/
theorem linesOfText_append {front : List Char} (complete : ∀ last ∈ front.getLast?, last = '\n')
    (back : List Char) : linesOfText (front ++ back) = linesOfText front ++ linesOfText back := by
  rcases List.eq_nil_or_concat front with rfl | ⟨lines, last, rfl⟩
  · rfl
  · rw [List.concat_eq_append] at complete ⊢
    obtain rfl : last = '\n' := complete last (by simp)
    rw [linesOfText, List.append_assoc, List.singleton_append, Text.linesBy_append_break,
      List.map_append]
    · rfl
    · exact beq_self_eq_true '\n'

end PhysicalLine

end Codebook
