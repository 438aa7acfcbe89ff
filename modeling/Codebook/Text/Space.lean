/-
This file fixes what counts as white space and what is done with it. Dictionary text is handled
as a list of characters: white space is cut off at either end of a line, and words are the runs
between it. The class is the Unicode property `White_Space`, so a no-break space or an
ideographic space separates words just as a blank does.
-/

namespace Codebook.Text

/-- The characters with the Unicode property `White_Space`. -/
def isSpace (c : Char) : Bool :=
  let code := c.toNat
  (9 ≤ code && code ≤ 13) || code == 0x20 || code == 0x85 || code == 0xA0 || code == 0x1680 ||
    (0x2000 ≤ code && code ≤ 0x200A) || code == 0x2028 || code == 0x2029 || code == 0x202F ||
    code == 0x205F || code == 0x3000

/-- Every character that core takes for white space is white space here too. -/
theorem isSpace_of_isWhitespace {c : Char} (white : c.isWhitespace = true) :
    isSpace c = true := by
  simp only [Char.isWhitespace, Bool.or_eq_true, decide_eq_true_eq] at white
  rcases white with ((rfl | rfl) | rfl) | rfl <;> decide

/-! ### The ends of a text -/

/-- The text without the longest tail whose characters satisfy `drop`. -/
def dropEndWhile (drop : Char → Bool) (text : List Char) : List Char :=
  (text.reverse.dropWhile drop).reverse

/-- The text from its first character that is not white space. -/
def trimStart (text : List Char) : List Char :=
  text.dropWhile isSpace

/-- The text up to its last character that is not white space. -/
def trimEnd (text : List Char) : List Char :=
  dropEndWhile isSpace text

def trim (text : List Char) : List Char :=
  trimEnd (trimStart text)

def isBlank (text : List Char) : Bool :=
  text.all isSpace

@[simp] theorem dropEndWhile_nil (drop : Char → Bool) : dropEndWhile drop [] = [] := rfl

@[simp] theorem trimStart_nil : trimStart [] = [] := rfl

@[simp] theorem trimEnd_nil : trimEnd [] = [] := rfl

@[simp] theorem trim_nil : trim [] = [] := rfl

/-- What is cut off at the end satisfies `drop`, and nothing else is lost. -/
theorem exists_append_dropEndWhile (drop : Char → Bool) (text : List Char) :
    ∃ tail, text = dropEndWhile drop text ++ tail ∧ ∀ c ∈ tail, drop c = true := by
  refine ⟨(text.reverse.takeWhile drop).reverse, ?_, ?_⟩
  · rw [dropEndWhile, ← List.reverse_append, List.takeWhile_append_dropWhile,
      List.reverse_reverse]
  · intro c member
    exact List.all_eq_true.mp List.all_takeWhile c (List.mem_reverse.mp member)

/-- A character that satisfies `drop` is not left at the end. -/
theorem not_drop_getLast?_dropEndWhile (drop : Char → Bool) (text : List Char) :
    ∀ last ∈ (dropEndWhile drop text).getLast?, drop last = false := by
  intro last isLast
  rw [dropEndWhile, List.getLast?_reverse] at isLast
  have kept := List.head?_dropWhile_not drop text.reverse
  rw [isLast] at kept
  exact kept

/-- A mark that is not dropped keeps what stands before it. -/
theorem dropEndWhile_append {drop : Char → Bool} {mark : List Char} (nonempty : mark ≠ [])
    (kept : ∀ c ∈ mark, drop c = false) (front tail : List Char) :
    dropEndWhile drop (front ++ (mark ++ tail)) = front ++ (mark ++ dropEndWhile drop tail) := by
  have atMark : (mark.reverse ++ front.reverse).dropWhile drop = mark.reverse ++ front.reverse := by
    cases shape : mark.reverse with
    | nil => exact absurd (List.reverse_eq_nil_iff.mp shape) nonempty
    | cons last others =>
      have isKept := kept last (List.mem_reverse.mp (shape ▸ List.mem_cons_self))
      rw [List.cons_append, List.dropWhile_cons_of_neg (by simp [isKept])]
  unfold dropEndWhile
  rw [List.reverse_append, List.reverse_append, List.append_assoc, List.dropWhile_append]
  split
  next dropped =>
    rw [List.isEmpty_iff.mp dropped, atMark]
    simp
  next => simp

theorem trimStart_eq_nil_iff {text : List Char} : trimStart text = [] ↔ isBlank text = true := by
  rw [trimStart, isBlank]
  induction text with
  | nil => simp
  | cons c rest inductionHypothesis => cases blank : isSpace c <;> simp [blank, inductionHypothesis]

/-- White space in front is cut off with the rest. -/
theorem trimStart_of_blank {blank : List Char} (isBlank : isBlank blank = true)
    (rest : List Char) : trimStart (blank ++ rest) = trimStart rest :=
  List.dropWhile_append_of_pos (List.all_eq_true.mp isBlank)

/-- What is cut off at the start is white space. -/
theorem exists_append_trimStart (text : List Char) :
    ∃ blank, isBlank blank = true ∧ text = blank ++ trimStart text :=
  ⟨text.takeWhile isSpace, List.all_takeWhile, List.takeWhile_append_dropWhile.symm⟩

theorem trimStart_append {before : List Char} (visible : isBlank before = false)
    (rest : List Char) : trimStart (before ++ rest) = trimStart before ++ rest := by
  have left : (before.dropWhile isSpace).isEmpty = false := by
    rw [List.isEmpty_eq_false_iff, ne_eq, ← trimStart, trimStart_eq_nil_iff, visible]
    exact Bool.false_ne_true
  rw [trimStart, List.dropWhile_append, left, if_neg Bool.false_ne_true, trimStart]

/-- What stands behind a character that is not white space is not cut off at the start. -/
theorem trimStart_append_cons {c : Char} (notSpace : isSpace c = false) (front rest : List Char) :
    trimStart (front ++ c :: rest) = trimStart front ++ c :: rest := by
  cases blank : isBlank front with
  | false => exact trimStart_append blank _
  | true =>
    rw [trimStart_of_blank blank, trimStart_eq_nil_iff.mpr blank, trimStart,
      List.dropWhile_cons_of_neg (by simp [notSpace]), List.nil_append]

theorem trimEnd_append_cons {c : Char} (notSpace : isSpace c = false) (front rest : List Char) :
    trimEnd (front ++ c :: rest) = front ++ c :: trimEnd rest := by
  have kept := dropEndWhile_append (List.cons_ne_nil c [])
    (List.forall_mem_singleton.mpr notSpace) front rest
  rwa [List.singleton_append] at kept

/-- Of what stands on either side of such a character only the outer ends are cut off. -/
theorem trim_append_cons {c : Char} (notSpace : isSpace c = false) (front rest : List Char) :
    trim (front ++ c :: rest) = trimStart front ++ c :: trimEnd rest := by
  rw [trim, trimStart_append_cons notSpace, trimEnd_append_cons notSpace]

/-- Trimming keeps a first character that is not white space. -/
theorem head?_trim {c : Char} (notSpace : isSpace c = false) (rest : List Char) :
    (trim (c :: rest)).head? = some c :=
  congrArg List.head? (trim_append_cons notSpace [] rest)

theorem trim_subset (text : List Char) : trim text ⊆ text := by
  intro c member
  obtain ⟨tail, parts, -⟩ := exists_append_dropEndWhile isSpace (trimStart text)
  have inStart : c ∈ trimStart text := by
    rw [parts]
    exact List.mem_append_left tail member
  exact (List.dropWhile_sublist isSpace).subset inStart

theorem trimEnd_trimEnd (text : List Char) : trimEnd (trimEnd text) = trimEnd text := by
  unfold trimEnd dropEndWhile
  rw [List.reverse_reverse]
  cases shape : text.reverse.dropWhile isSpace with
  | nil => rfl
  | cons last others =>
    have kept := List.head?_dropWhile_not isSpace text.reverse
    rw [shape] at kept
    rw [List.dropWhile_cons_of_neg (by simpa using kept)]

theorem trim_trim (text : List Char) : trim (trim text) = trim text := by
  cases shape : trimStart text with
  | nil =>
    have nothing : trim text = [] := by rw [trim, shape, trimEnd_nil]
    rw [nothing, trim_nil]
  | cons c rest =>
    have kept := List.head?_dropWhile_not isSpace text
    rw [← trimStart, shape] at kept
    have notSpace : isSpace c = false := by simpa using kept
    have trimmed : trim text = [] ++ c :: trimEnd rest := by
      rw [trim, shape]
      exact trimEnd_append_cons notSpace [] rest
    rw [trimmed, trim_append_cons notSpace, trimEnd_trimEnd, trimStart_nil]

theorem trimEnd_eq_nil_iff {text : List Char} : trimEnd text = [] ↔ isBlank text = true := by
  have mirrored : trimEnd text = (trimStart text.reverse).reverse := rfl
  rw [mirrored, List.reverse_eq_nil_iff, trimStart_eq_nil_iff, isBlank, isBlank, List.all_reverse]

end Codebook.Text
