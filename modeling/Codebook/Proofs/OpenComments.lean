/-
This file says what a physical line comes to. A comment that is open at the end of a line but was
not open at its start has its opener on the line, and what stands before the opener decides which
comment it is (`Comment.Opens`): one that starts the line, or one behind an entry, which may itself
follow the end of another comment. There are four things a line can do, whatever comment is open at
its start (`Comment.cleans`): leave that comment open, close it and go on with what stood before it,
open a comment, or yield what is left of it up to a `#`.
-/

import Codebook.Proofs.InlineComments

namespace Codebook

open Text

namespace Comment

/-! ### Where comments are opened -/

/-- Whether an entry can start behind `front`, on a line at whose start `comment` is open: at the
start of the line, behind a comment that starts the line, or behind the end of one that started a
line above. -/
inductive EntryStarts : Comment → List Char → Prop
  | atStart : EntryStarts .outside []
  | behindOwn {blank inside : List Char} (isBlank : isBlank blank = true)
    (closes : ¬ closer <:+: inside) : EntryStarts .outside (blank ++ (opener ++ (inside ++ closer)))
  | behindEarlier {inside : List Char} (closes : ¬ closer <:+: inside) :
    EntryStarts .leading (inside ++ closer)

/-- Whether an opener behind `front`, on a line at whose start `comment` is open, opens `opened`. -/
inductive Opens : Comment → List Char → Comment → Prop
  | leading {front : List Char} (isBlank : isBlank front = true) : Opens .outside front .leading
  | inline {comment : Comment} {front before : List Char} (starts : EntryStarts comment front)
    (entry : IsEntry before) : Opens comment (front ++ before) (.inline before)

/-- Behind `front` a line is read as an entry. Only at the start of a line does it matter whether a
comment comes first. -/
theorem EntryStarts.clean_eq {comment : Comment} {front body : List Char}
    (starts : EntryStarts comment front) (noComment : ¬ opener <+: trimStart body) :
    comment.clean (front ++ body) = cleanBody body := by
  cases starts with
  | atStart =>
    rw [List.nil_append, clean, stripStart?_eq_none_iff.mpr noComment]
  | @behindOwn blank inside isBlank closes =>
    have behind : trimStart (blank ++ (opener ++ (inside ++ closer)) ++ body) =
        opener ++ (inside ++ (closer ++ body)) := by
      simp only [List.append_assoc]
      rw [trimStart_of_blank isBlank]
      rfl
    rw [clean, behind, stripStart?_append]
    dsimp only
    rw [cutAt?_append closer_isUnbordered closes]
  | @behindEarlier inside closes =>
    rw [List.append_assoc, clean, cutAt?_append closer_isUnbordered closes]

/-- A comment that is opened on a line and not closed on it is open at the end of the line. -/
theorem Opens.clean_eq {comment opened : Comment} {front hidden : List Char}
    (opens : Opens comment front opened) (unclosed : ¬ closer <:+: hidden) :
    comment.clean (front ++ (opener ++ hidden)) = (opened, none) := by
  cases opens with
  | leading isBlank =>
    have behind : trimStart (front ++ (opener ++ hidden)) = opener ++ hidden :=
      trimStart_of_blank isBlank _
    rw [clean, behind, stripStart?_append]
    dsimp only
    rw [cutAt?_eq_none_iff.mpr unclosed]
  | @inline _ front before starts entry =>
    have unclosedKept : ¬ closer <:+: hidden.takeWhile (· != '#') := fun found =>
      unclosed (found.trans (List.takeWhile_prefix _).isInfix)
    rw [List.append_assoc, starts.clean_eq (entry.noOpener_before hidden), entry.cleanBody_eq,
      cutAt?_eq_none_iff.mpr unclosedKept, Option.elim_none]

/-! ### What a line comes to -/

/-- The ways in which a line can be read, with what each of them comes to. -/
inductive Cleans : Comment → List Char → Comment × Option (List Char) → Prop
  /-- The line is hidden as a whole. -/
  | goesOn {comment : Comment} {line : List Char} (isOpen : comment ≠ .outside)
    (unclosed : ¬ closer <:+: line) : Cleans comment line (comment, none)
  /-- What stood before a comment goes on behind its end. -/
  | closes {before hidden : List Char} (unclosed : ¬ closer <:+: hidden) (tail : List Char) :
    Cleans (.inline before) (hidden ++ (closer ++ tail)) (.outside, keepText (before ++ tail))
  | opens {comment opened : Comment} {front : List Char} (opens : Opens comment front opened)
    (hidden : List Char) : Cleans comment (front ++ (opener ++ hidden)) (opened, none)
  /-- What is left of the line is its entry, if it is not blank. -/
  | keeps {comment : Comment} {line kept : List Char} (part : kept ⊆ line) (uncut : '#' ∉ kept) :
    Cleans comment line (.outside, keepText kept)

/-- The text before an opener is an entry unless the line is left out. -/
theorem isEntry_of_not_isIdle {before hidden : List Char}
    (notIdle : ¬ isIdle (before ++ (opener ++ hidden)) = true) (uncut : '#' ∉ before)
    (first : ¬ opener <:+: before) : IsEntry before := by
  rw [isIdle_iff, not_or, not_or] at notIdle
  obtain ⟨-, -, noDeclaration⟩ := notIdle
  have visible : isBlank before = false := by
    rw [← Bool.not_eq_true]
    intro blank
    refine noDeclaration ?_
    rw [trimStart_of_blank blank]
    exact List.prefix_append ['<', '!'] _
  refine ⟨visible, uncut, first, fun declares => noDeclaration ?_⟩
  rw [trimStart_append visible]
  exact declares.trans (List.prefix_append _ _)

/-- Where an entry can start, the rest of the line opens a comment behind an entry, or is one. -/
theorem EntryStarts.cleans {comment : Comment} {front : List Char}
    (starts : EntryStarts comment front) (body : List Char) :
    Cleans comment (front ++ body) (cleanBody body) := by
  have inLine {part : List Char} (inBody : part ⊆ body) : part ⊆ front ++ body :=
    List.Subset.trans inBody (List.subset_append_right _ _)
  rw [cleanBody]
  split
  next => exact .keeps (List.nil_subset _) List.not_mem_nil
  next notIdle =>
    have uncut := not_mem_takeWhile body
    have ofBody : body.takeWhile (· != '#') ⊆ body := (List.takeWhile_prefix _).subset
    dsimp only
    cases found : cutAt? opener (body.takeWhile (· != '#')) with
    | none => exact .keeps (inLine ofBody) uncut
    | some parts =>
      obtain ⟨before, behind⟩ := parts
      obtain ⟨shape, first⟩ := cutAt?_eq_some opener_ne_nil found
      rw [shape] at uncut ofBody
      dsimp only
      cases closed : cutAt? closer behind with
      | none =>
        have whole : body = before ++ (opener ++ (behind ++ body.dropWhile (· != '#'))) := by
          rw [← List.append_assoc opener, ← List.append_assoc before, ← shape,
            List.takeWhile_append_dropWhile]
        rw [whole] at notIdle
        have entry := isEntry_of_not_isIdle notIdle
          (fun member => uncut (List.mem_append_left _ member)) first
        rw [whole, ← List.append_assoc front]
        exact .opens (.inline starts entry) _
      | some parts =>
        obtain ⟨inside, rest⟩ := parts
        obtain ⟨rfl, -⟩ := cutAt?_eq_some closer_ne_nil closed
        have part : before ++ rest ⊆ before ++ (opener ++ (inside ++ (closer ++ rest))) := by
          refine List.append_subset.mpr ⟨List.subset_append_left _ _, ?_⟩
          simp only [← List.append_assoc]
          exact List.subset_append_right _ _
        exact .keeps (inLine (List.Subset.trans part ofBody)) fun member => uncut (part member)

/-- A line is read in one of these ways. -/
theorem cleans (comment : Comment) (line : List Char) :
    Cleans comment line (comment.clean line) := by
  cases comment with
  | outside =>
    rw [clean]
    cases found : stripStart? opener (trimStart line) with
    | none => exact EntryStarts.atStart.cleans line
    | some behind =>
      obtain ⟨blank, isBlank, shape⟩ := exists_append_trimStart line
      rw [stripStart?_eq_some found] at shape
      dsimp only
      cases closed : cutAt? closer behind with
      | none =>
        rw [shape]
        exact .opens (.leading isBlank) _
      | some parts =>
        obtain ⟨inside, rest⟩ := parts
        obtain ⟨rfl, closes⟩ := cutAt?_eq_some closer_ne_nil closed
        have read := (EntryStarts.behindOwn isBlank closes).cleans rest
        simp only [List.append_assoc] at read
        rw [shape]
        exact read
  | leading =>
    rw [clean]
    cases closed : cutAt? closer line with
    | none => exact .goesOn (by simp) (cutAt?_eq_none_iff.mp closed)
    | some parts =>
      obtain ⟨inside, rest⟩ := parts
      obtain ⟨rfl, closes⟩ := cutAt?_eq_some closer_ne_nil closed
      have read := (EntryStarts.behindEarlier closes).cleans rest
      rw [List.append_assoc] at read
      exact read
  | inline before =>
    rw [clean]
    cases closed : cutAt? closer line with
    | none => exact .goesOn (by simp) (cutAt?_eq_none_iff.mp closed)
    | some parts =>
      obtain ⟨hidden, tail⟩ := parts
      obtain ⟨rfl, unclosed⟩ := cutAt?_eq_some closer_ne_nil closed
      exact .closes unclosed tail

/-- A comment that a line opens and leaves open has its opener on the line. -/
theorem exists_opens {comment : Comment} {line : List Char}
    (isOpen : (comment.clean line).1 ≠ .outside) (isNew : (comment.clean line).1 ≠ comment) :
    ∃ front hidden, line = front ++ (opener ++ hidden) ∧
      Opens comment front (comment.clean line).1 := by
  have read := comment.cleans line
  generalize comment.clean line = result at read isOpen isNew
  cases read with
  | goesOn => exact absurd rfl isNew
  | closes => exact absurd rfl isOpen
  | opens opens hidden => exact ⟨_, hidden, rfl, opens⟩
  | keeps => exact absurd rfl isOpen

end Comment

end Codebook
