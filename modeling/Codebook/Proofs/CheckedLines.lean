/-
This file cleans physical lines with every slice checked. A mark is found at a byte, and what stands
before and behind it is sliced out of the bytes of the line; a slice that would start or end inside
a character, or behind the end, cannot be taken and ends the program. Main statement: all slices can
be taken, whatever stands on a line, so that checking changes nothing (`Comment.cleanChecked_eq`).
-/

import Codebook.Proofs.CheckedTries
import Codebook.Proofs.InlineComments
import Codebook.Proofs.SentenceSlices

namespace Codebook

open Text

/-- The part of a text between two bytes. -/
def Access.slice (text : List Char) (start stop : Nat) : Except Access (List Char) :=
  Access.bytes.need (slice? text start stop)

theorem Access.slice_eq_ok {text : List Char} {start stop : Nat} (front part back : List Char)
    (shape : text = front ++ (part ++ back)) (atStart : start = byteCount front)
    (atStop : stop = start + byteCount part) : Access.slice text start stop = .ok part :=
  need_of_eq_some (slice?_eq_some front part back shape atStart atStop)

namespace Text

/-! ### Bytes at which something is found -/

/-- The byte at which a mark occurs for the first time. -/
def find? (mark : List Char) (text : List Char) : Option Nat :=
  if mark.isPrefixOf text then some 0
  else match text with
    | [] => none
    | c :: rest => (find? mark rest).map (c.utf8Size + ·)

theorem find?_eq (mark text : List Char) :
    find? mark text = (cutAt? mark text).map fun parts => byteCount parts.1 := by
  induction text with
  | nil =>
    rw [find?, cutAt?]
    split <;> rfl
  | cons c rest inductionHypothesis =>
    rw [find?, cutAt?, inductionHypothesis]
    split
    next => rfl
    next =>
      simp only [Option.map_map]
      congr 1
      funext parts
      exact (byteCount_cons c parts.1).symm

/-- The byte of the first character that satisfies `stops`, or the end of the text. -/
def findEnd (stops : Char → Bool) : List Char → Nat
  | [] => 0
  | c :: rest => if stops c then 0 else c.utf8Size + findEnd stops rest

theorem findEnd_eq (stops : Char → Bool) (text : List Char) :
    findEnd stops text = byteCount (text.takeWhile (!stops ·)) := by
  induction text with
  | nil => rfl
  | cons c rest inductionHypothesis =>
    rw [findEnd, List.takeWhile_cons]
    cases stops c with
    | true => rfl
    | false =>
      rw [if_neg Bool.false_ne_true, Bool.not_false, if_pos rfl, byteCount_cons,
        inductionHypothesis]

/-! ### Slices at what has been found -/

/-- The text before and behind the first occurrence of a mark. -/
def cutChecked (mark text : List Char) : Except Access (Option (List Char × List Char)) :=
  match find? mark text with
  | none => return none
  | some start => do
    let after ← Access.slice text (start + byteCount mark) (byteCount text)
    let before ← Access.slice text 0 start
    return some (before, after)

/-- The text up to the first character that satisfies `stops`. -/
def takeChecked (stops : Char → Bool) (text : List Char) : Except Access (List Char) :=
  Access.slice text 0 (findEnd stops text)

def trimEndChecked (text : List Char) : Except Access (List Char) :=
  Access.slice text 0 (byteCount (trimEnd text))

/-- A mark that is found fills the bytes behind the one at which it is found, so what stands before
it and what stands behind it are whole characters. -/
theorem cutChecked_eq {mark : List Char} (nonempty : mark ≠ []) (text : List Char) :
    cutChecked mark text = .ok (cutAt? mark text) := by
  rw [cutChecked, find?_eq]
  cases found : cutAt? mark text with
  | none => rfl
  | some parts =>
    obtain ⟨before, after⟩ := parts
    obtain ⟨rfl, -⟩ := cutAt?_eq_some nonempty found
    have behind : Access.slice (before ++ (mark ++ after)) (byteCount before + byteCount mark)
        (byteCount (before ++ (mark ++ after))) = .ok after := by
      refine Access.slice_eq_ok (before ++ mark) after [] (by simp) (by simp) ?_
      rw [byteCount_append, byteCount_append, Nat.add_assoc]
    have front : Access.slice (before ++ (mark ++ after)) 0 (byteCount before) = .ok before :=
      Access.slice_eq_ok [] before (mark ++ after) rfl rfl (Nat.zero_add _).symm
    rw [Option.map_some]
    dsimp only
    rw [behind, Access.ok_bind, front, Access.ok_bind]
    rfl

theorem takeChecked_eq (stops : Char → Bool) (text : List Char) :
    takeChecked stops text = .ok (text.takeWhile (!stops ·)) := by
  refine Access.slice_eq_ok [] _ (text.dropWhile (!stops ·)) ?_ rfl ?_
  · exact List.takeWhile_append_dropWhile.symm
  · rw [findEnd_eq, Nat.zero_add]

theorem trimEndChecked_eq (text : List Char) : trimEndChecked text = .ok (trimEnd text) := by
  obtain ⟨tail, shape, -⟩ := exists_append_dropEndWhile isSpace text
  exact Access.slice_eq_ok [] (trimEnd text) tail shape rfl (Nat.zero_add _).symm

end Text

/-! ### Cleaning -/

namespace Comment

/-- `keepText` with its slice checked. -/
def keepTextChecked (line : List Char) : Except Access (Option (List Char)) :=
  if isBlank line then return none else do return some (← trimEndChecked line)

/-- `cleanBody` with its slices checked: up to a `#`, and before and behind a comment. -/
def cleanBodyChecked (line : List Char) : Except Access (Comment × Option (List Char)) := do
  if isIdle line then return (.outside, none)
  let kept ← takeChecked (· == '#') line
  match ← cutChecked opener kept with
  | none => return (.outside, ← keepTextChecked kept)
  | some (before, after) =>
    match ← cutChecked closer after with
    | none => return (.inline before, none)
    | some (_, rest) => return (.outside, ← keepTextChecked (before ++ rest))

/-- `clean` with its slices checked: behind the end of a comment, and those of `cleanBody`. -/
def cleanChecked (comment : Comment) (line : List Char) :
    Except Access (Comment × Option (List Char)) :=
  match comment with
  | .outside =>
    match stripStart? opener (trimStart line) with
    | none => cleanBodyChecked line
    | some after => do
      match ← cutChecked closer after with
      | none => return (.leading, none)
      | some (_, rest) => cleanBodyChecked rest
  | .leading => do
    match ← cutChecked closer line with
    | none => return (.leading, none)
    | some (_, rest) => cleanBodyChecked rest
  | .inline before => do
    match ← cutChecked closer line with
    | none => return (.inline before, none)
    | some (_, rest) => return (.outside, ← keepTextChecked (before ++ rest))

theorem cutChecked_opener (text : List Char) : cutChecked opener text = .ok (cutAt? opener text) :=
  cutChecked_eq (List.cons_ne_nil _ _) text

theorem cutChecked_closer (text : List Char) : cutChecked closer text = .ok (cutAt? closer text) :=
  cutChecked_eq (List.cons_ne_nil _ _) text

theorem keepTextChecked_eq (line : List Char) : keepTextChecked line = .ok (keepText line) := by
  rw [keepTextChecked, keepText, trimEndChecked_eq]
  split <;> rfl

theorem cleanBodyChecked_eq (line : List Char) : cleanBodyChecked line = .ok (cleanBody line) := by
  rw [cleanBodyChecked, cleanBody]
  split
  next => rfl
  next =>
    rw [takeChecked_eq, Access.ok_bind, cutChecked_opener, Access.ok_bind]
    show _ = Except.ok (match cutAt? opener (line.takeWhile (!· == '#')) with
      | none => (Comment.outside, keepText (line.takeWhile (!· == '#')))
      | some (before, after) =>
        match cutAt? closer after with
        | none => (.inline before, none)
        | some (_, rest) => (.outside, keepText (before ++ rest)))
    cases cutAt? opener (line.takeWhile (!· == '#')) with
    | none =>
      dsimp only
      rw [keepTextChecked_eq]
      rfl
    | some parts =>
      dsimp only
      rw [cutChecked_closer, Access.ok_bind]
      cases cutAt? closer parts.2 with
      | none => rfl
      | some parts =>
        dsimp only
        rw [keepTextChecked_eq]
        rfl

/-- Every slice of a line can be taken. -/
theorem cleanChecked_eq (comment : Comment) (line : List Char) :
    comment.cleanChecked line = .ok (comment.clean line) := by
  cases comment with
  | outside =>
    rw [cleanChecked, clean]
    cases stripStart? opener (trimStart line) with
    | none => exact cleanBodyChecked_eq line
    | some after =>
      dsimp only
      rw [cutChecked_closer, Access.ok_bind]
      cases cutAt? closer after with
      | none => rfl
      | some parts => exact cleanBodyChecked_eq parts.2
  | leading =>
    rw [cleanChecked, clean, cutChecked_closer, Access.ok_bind]
    cases cutAt? closer line with
    | none => rfl
    | some parts => exact cleanBodyChecked_eq parts.2
  | inline before =>
    rw [cleanChecked, clean, cutChecked_closer, Access.ok_bind]
    cases cutAt? closer line with
    | none => rfl
    | some parts =>
      dsimp only
      rw [keepTextChecked_eq]
      rfl

end Comment

end Codebook
