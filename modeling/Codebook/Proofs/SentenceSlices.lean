/-
This file says what is sliced out of a text to tell whether a mark ends a sentence. A slice is taken
between two bytes, and none can be taken that cuts a character in two. The word before a full stop
is sliced from one byte behind the start of the last white space, so that this slice cannot be taken
if that white space takes more bytes than one. Main statement: nothing else goes wrong, and a mark
is judged as when the sentence is read from its end (`Sentences.endsAt_eq`).
-/

import Codebook.Calendar
import Codebook.Proofs.SentencePositions

namespace Codebook

namespace Text

/-! ### Slices between bytes -/

/-- The bytes of a text in UTF-8. -/
def bytes (text : List Char) : List UInt8 :=
  text.flatMap String.utf8EncodeChar

/-- The number of bytes of a text. -/
def byteCount (text : List Char) : Nat :=
  (bytes text).length

/-- The part of a text from byte `start` up to byte `stop`. There is none if the text is too short,
if the bounds are reversed, or if one of them lies inside a character. -/
def slice? (text : List Char) (start stop : Nat) : Option (List Char) := do
  let (front, _) ← Date.takeBytes? stop text
  let (_, part) ← Date.takeBytes? start front
  return part

@[simp] theorem byteCount_nil : byteCount [] = 0 := rfl

@[simp] theorem byteCount_cons (c : Char) (text : List Char) :
    byteCount (c :: text) = c.utf8Size + byteCount text := by
  simp [byteCount, bytes]

@[simp] theorem byteCount_append (front back : List Char) :
    byteCount (front ++ back) = byteCount front + byteCount back := by
  simp [byteCount, bytes]

/-- What is taken starts with a text that fills no more bytes. -/
theorem takeBytes?_append (front text : List Char) (count : Nat) :
    Date.takeBytes? (byteCount front + count) (front ++ text) =
      (Date.takeBytes? count text).map fun (taken, left) => (front ++ taken, left) := by
  induction front with
  | nil => simp
  | cons c front inductionHypothesis =>
    obtain ⟨size, width⟩ := Nat.exists_eq_add_of_le' c.utf8Size_pos
    have total : byteCount (c :: front) + count = size + byteCount front + count + 1 := by
      rw [byteCount_cons, width]
      omega
    have others : size + byteCount front + count + 1 - c.utf8Size = byteCount front + count := by
      omega
    rw [total, List.cons_append, Date.takeBytes?, if_pos (by omega), others, inductionHypothesis,
      Option.map_map]
    rfl

theorem takeBytes?_byteCount (front back : List Char) :
    Date.takeBytes? (byteCount front) (front ++ back) = some (front, back) := by
  simpa [Date.takeBytes?] using takeBytes?_append front back 0

theorem slice?_eq_some {text : List Char} {start stop : Nat} (front part back : List Char)
    (shape : text = front ++ (part ++ back)) (atStart : start = byteCount front)
    (atStop : stop = start + byteCount part) : slice? text start stop = some part := by
  subst atStart atStop shape
  simp only [slice?, ← byteCount_append, ← List.append_assoc, takeBytes?_byteCount,
    Option.bind_eq_bind, Option.bind_some, Option.pure_def]

/-- No slice starts at the second byte of a character. -/
theorem slice?_eq_none {text : List Char} {start stop : Nat} (front part back : List Char)
    {c : Char} (wide : 1 < c.utf8Size) (shape : text = front ++ (c :: part ++ back))
    (atStart : start = byteCount front + 1) (atStop : stop = byteCount (front ++ c :: part)) :
    slice? text start stop = none := by
  have inside : Date.takeBytes? 1 (c :: part) = none := by
    rw [Date.takeBytes?, if_neg (by omega)]
  subst atStart atStop shape
  simp only [slice?, ← List.append_assoc, takeBytes?_byteCount, takeBytes?_append, inside,
    Option.bind_eq_bind, Option.bind_some, Option.map_none, Option.bind_none]

/-- The byte behind some text is the first one of the next character. -/
theorem getElem?_bytes (front : List Char) (c : Char) (back : List Char) :
    (bytes (front ++ c :: back))[byteCount front]? = (String.utf8EncodeChar c)[0]? := by
  have positive : 0 < (String.utf8EncodeChar c).length := by
    rw [String.length_utf8EncodeChar]
    exact c.utf8Size_pos
  have parts : bytes (front ++ c :: back) =
      bytes front ++ (String.utf8EncodeChar c ++ bytes back) := by
    simp [bytes]
  rw [parts, byteCount, List.getElem?_append_right (Nat.le_refl _), Nat.sub_self,
    List.getElem?_append_left positive]

end Text

namespace Sentences

open Text

/-! ### Slices at a mark -/

/-- The slices of the text that remains which a turn takes: the text before the mark, the word
before a full stop, the text behind the mark, the sentence that ends there, and what remains. -/
inductive Slice
  | beforeMark
  | word
  | behindMark
  | sentence
  | remainder
deriving DecidableEq, Repr

/-- Slices a text. A slice that cannot be taken is the fault. -/
def Slice.take (slice : Slice) (text : List Char) (start stop : Nat) : Except Slice (List Char) :=
  match slice? text start stop with
  | some part => .ok part
  | none => .error slice

/-- The byte behind the first one of the last white space in a text, or the start of the text. -/
def wordStart (text : List Char) : Nat :=
  match text.reverse.dropWhile (!isSpace ·) with
  | [] => 0
  | _ :: inner => byteCount inner.reverse + 1

/-- Whether the mark at byte `mark` of a text ends the sentence that the text starts with. -/
def endsAt (text : List Char) (mark : Nat) : Except Slice Bool := do
  let before ← Slice.beforeMark.take text 0 mark
  if (bytes text)[mark]? ≠ some 46 then return isBalanced before
  else if endsInInitial before.reverse then return false
  else
    let word ← Slice.word.take text (wordStart before) (mark + 1)
    if abbreviations.contains (String.ofList (lowerChars word)) then return false
    else return isBalanced before

theorem Slice.take_eq_ok {slice : Slice} {text : List Char} {start stop : Nat}
    (front part back : List Char) (shape : text = front ++ (part ++ back))
    (atStart : start = byteCount front) (atStop : stop = start + byteCount part) :
    slice.take text start stop = .ok part := by
  rw [Slice.take, slice?_eq_some front part back shape atStart atStop]

theorem Slice.take_eq_error {slice : Slice} {text : List Char} {start stop : Nat}
    (front part back : List Char) {c : Char} (wide : 1 < c.utf8Size)
    (shape : text = front ++ (c :: part ++ back)) (atStart : start = byteCount front + 1)
    (atStop : stop = byteCount (front ++ c :: part)) :
    slice.take text start stop = .error slice := by
  rw [Slice.take, slice?_eq_none front part back wide shape atStart atStop]

theorem Slice.take_start (slice : Slice) (text : List Char) (i : Nat) :
    slice.take text 0 (byteCount (text.take i)) = .ok (text.take i) :=
  take_eq_ok [] (text.take i) (text.drop i) (by simp) rfl (Nat.zero_add _).symm

theorem Slice.take_end (slice : Slice) (text : List Char) (i : Nat) :
    slice.take text (byteCount (text.take i)) (byteCount text) = .ok (text.drop i) := by
  refine take_eq_ok (text.take i) (text.drop i) [] (by simp) rfl ?_
  rw [← byteCount_append, List.take_append_drop]

/-! ### Wide white space -/

/-- White space is not uppercase. -/
theorem isUpper_of_isSpace {c : Char} (space : isSpace c = true) : isUpper c = false := by
  have none : ∀ code ∈ [9, 10, 11, 12, 13, 0x20, 0x85, 0xA0, 0x1680, 0x2000, 0x2001, 0x2002, 0x2003,
      0x2004, 0x2005, 0x2006, 0x2007, 0x2008, 0x2009, 0x200A, 0x2028, 0x2029, 0x202F, 0x205F,
      0x3000], isUpper (Char.ofNat code) = false := by
    decide
  rw [← Char.ofNat_toNat c]
  refine none c.toNat ?_
  simp only [isSpace, Bool.or_eq_true, Bool.and_eq_true, decide_eq_true_eq, beq_iff_eq] at space
  simp only [List.mem_cons, List.not_mem_nil, or_false]
  omega

/-- Whether the last white space of a text takes more than one byte. -/
def IsBehindWideSpace (text : List Char) : Prop :=
  ∃ space ∈ text.reverse.find? isSpace, 1 < space.utf8Size

instance (text : List Char) : Decidable (IsBehindWideSpace text) :=
  Option.decidableExistsMem (text.reverse.find? isSpace)

section Wide

variable {backwards : List Char}

theorem not_isBehindWideSpace_of_nil (shape : backwards.dropWhile (!isSpace ·) = []) :
    ¬ IsBehindWideSpace backwards.reverse := by
  rw [IsBehindWideSpace, List.reverse_reverse, List.find?_eq_head?_dropWhile_not, shape]
  rintro ⟨space, missing, -⟩
  cases missing

theorem isBehindWideSpace_of_cons {space : Char} {inner : List Char}
    (shape : backwards.dropWhile (!isSpace ·) = space :: inner) :
    IsBehindWideSpace backwards.reverse ↔ 1 < space.utf8Size := by
  rw [IsBehindWideSpace, List.reverse_reverse, List.find?_eq_head?_dropWhile_not, shape]
  simp

theorem endsInAbbreviation_eq (backwards : List Char) :
    endsInAbbreviation backwards =
      if IsBehindWideSpace backwards.reverse then .error .wideSpaceBeforeWord
      else .ok (abbreviations.contains
        (String.ofList (lowerChars ((backwards.takeWhile (!isSpace ·)).reverse ++ ['.'])))) := by
  unfold endsInAbbreviation
  dsimp only
  cases shape : backwards.dropWhile (!isSpace ·) with
  | nil => rw [if_neg (not_isBehindWideSpace_of_nil shape)]
  | cons space inner =>
    have reading := isBehindWideSpace_of_cons shape
    by_cases wide : 1 < space.utf8Size
    · rw [if_pos (reading.mpr wide)]
      exact if_pos wide
    · rw [if_neg (mt reading.mp wide)]
      exact if_neg wide

/-- Behind an initial stands a blank, which takes one byte. -/
theorem not_isBehindWideSpace_of_endsInInitial (initial : endsInInitial backwards = true) :
    ¬ IsBehindWideSpace backwards.reverse := by
  unfold endsInInitial at initial
  split at initial
  next letter others =>
    have noSpace : isSpace letter = false := by
      by_contra space
      rw [isUpper_of_isSpace (by simpa using space)] at initial
      cases initial
    have shape : (letter :: ' ' :: others).dropWhile (!isSpace ·) = ' ' :: others := by
      rw [List.dropWhile_cons_of_pos (by simp [noSpace])]
      rfl
    rw [isBehindWideSpace_of_cons shape]
    decide
  next => cases initial

/-- Only a full stop makes the splitting of a text fail, and only behind a wide space. -/
theorem endsWith_eq_error_iff {mark : Char} {backwards : List Char} {fault : SplitFault} :
    endsWith mark backwards = .error fault ↔ mark = '.' ∧ IsBehindWideSpace backwards.reverse := by
  unfold endsWith
  by_cases stop : mark = '.'
  · rw [if_pos stop, and_iff_right stop]
    by_cases initial : endsInInitial backwards = true
    · rw [if_pos initial]
      exact iff_of_false (fun same => by cases same)
        (not_isBehindWideSpace_of_endsInInitial initial)
    · rw [if_neg initial, endsInAbbreviation_eq]
      by_cases wide : IsBehindWideSpace backwards.reverse
      · rw [if_pos wide]
        exact iff_of_true rfl wide
      · rw [if_neg wide]
        refine iff_of_false (fun same => ?_) wide
        simp only [bind, Except.bind] at same
        split at same <;> cases same
  · rw [if_neg stop]
    exact iff_of_false (fun same => by cases same) fun both => stop both.1

end Wide

/-- The slice of the word before a full stop reaches from the last white space over the full stop.
It cannot be taken exactly if that white space takes more than one byte. -/
theorem take_word (before behind : List Char) :
    Slice.word.take (before ++ '.' :: behind) (wordStart before) (byteCount before + 1) =
      if IsBehindWideSpace before then .error .word
      else .ok ((before.reverse.takeWhile (!isSpace ·)).reverse ++ ['.']) := by
  have stop : ('.' : Char).utf8Size = 1 := rfl
  have parts : (before.reverse.dropWhile (!isSpace ·)).reverse ++
      (before.reverse.takeWhile (!isSpace ·)).reverse = before := by
    rw [← List.reverse_append, List.takeWhile_append_dropWhile, List.reverse_reverse]
  generalize (before.reverse.takeWhile (!isSpace ·)).reverse = word at parts ⊢
  unfold wordStart
  cases shape : before.reverse.dropWhile (!isSpace ·) with
  | nil =>
    have narrow := not_isBehindWideSpace_of_nil shape
    rw [List.reverse_reverse] at narrow
    rw [shape] at parts
    obtain rfl : word = before := parts
    rw [if_neg narrow]
    exact Slice.take_eq_ok [] _ behind (by simp) rfl (by simp [stop])
  | cons space inner =>
    have reading := isBehindWideSpace_of_cons shape
    rw [List.reverse_reverse] at reading
    rw [shape, List.reverse_cons, List.append_assoc, List.singleton_append] at parts
    subst parts
    by_cases wide : 1 < space.utf8Size
    · rw [if_pos (reading.mpr wide)]
      exact Slice.take_eq_error inner.reverse (word ++ ['.']) behind wide (by simp) rfl
        (by simp [stop, Nat.add_assoc])
    · have narrow : space.utf8Size = 1 := by
        have size := space.utf8Size_pos
        omega
      rw [if_neg (mt reading.mp wide)]
      exact Slice.take_eq_ok (inner.reverse ++ [space]) _ behind (by simp) (by simp [narrow])
        (by simp [narrow, stop]; omega)

/-! ### Judging a mark -/

theorem utf8Size_of_isTerminal {c : Char} (terminal : isTerminal c = true) : c.utf8Size = 1 := by
  simp only [isTerminal, Bool.or_eq_true, beq_iff_eq] at terminal
  rcases terminal with (rfl | rfl) | rfl <;> rfl

theorem isBalanced_reverse (text : List Char) : isBalanced text.reverse = isBalanced text := by
  simp [isBalanced]

theorem stop_iff {mark : Char} (terminal : isTerminal mark = true) :
    (String.utf8EncodeChar mark)[0]? = some 46 ↔ mark = '.' := by
  simp only [isTerminal, Bool.or_eq_true, beq_iff_eq] at terminal
  rcases terminal with (rfl | rfl) | rfl <;> decide

/-- A mark ends its sentence as it does when the sentence is read from its end. -/
theorem endsAt_eq (before behind : List Char) {mark : Char} (terminal : isTerminal mark = true) :
    endsAt (before ++ mark :: behind) (byteCount before) =
      (endsWith mark before.reverse).mapError fun _ => .word := by
  have upToMark : Slice.beforeMark.take (before ++ mark :: behind) 0 (byteCount before) =
      .ok before :=
    Slice.take_eq_ok [] before (mark :: behind) rfl rfl (Nat.zero_add _).symm
  have isStop : (bytes (before ++ mark :: behind))[byteCount before]? = some 46 ↔ mark = '.' := by
    rw [getElem?_bytes, stop_iff terminal]
  rw [endsAt, upToMark, endsWith]
  show (if _ then _ else _) = _
  by_cases stop : mark = '.'
  · subst stop
    rw [if_neg (not_not.mpr (isStop.mpr rfl)), if_pos rfl, endsInAbbreviation_eq, take_word,
      List.reverse_reverse, isBalanced_reverse]
    by_cases initial : endsInInitial before.reverse = true
    · rw [if_pos initial, if_pos initial]
      rfl
    · rw [if_neg initial, if_neg initial]
      by_cases wide : IsBehindWideSpace before
      · rw [if_pos wide, if_pos wide]
        rfl
      · rw [if_neg wide, if_neg wide]
        show (if _ then _ else _) = Except.mapError _ (if _ then _ else _)
        split <;> rfl
  · rw [if_pos fun byte => stop (isStop.mp byte), if_neg stop, isBalanced_reverse]
    rfl

end Sentences

end Codebook
