/-
This file says what a comment hides that is opened behind an entry and closed on the same line. The
line is cut at a `#` before the comment in it is looked for, so that a `#` in the comment cuts off
the end of the comment, which is then taken to be open. Main statement: such a comment hides nothing
but itself exactly if there is no `#` in it (`LineSource.hidesOnlyItself_iff`). If there is one, the
comment ends at the end of the next comment, and what stands between is lost.
-/

import Codebook.Proofs.ReadingOnDemand

namespace Codebook

open Text

namespace Text

/-! ### Cutting at a mark -/

/-- Whether no tail of a mark is a start of it, so that two occurrences never overlap. -/
def IsUnbordered (mark : List Char) : Prop :=
  ∀ k < mark.length, 0 < k → ¬ mark.drop k <+: mark

instance (mark : List Char) : Decidable (IsUnbordered mark) :=
  inferInstanceAs (Decidable (∀ k < mark.length, 0 < k → ¬ mark.drop k <+: mark))

/-- A text in which an unbordered mark does not occur may go on with the mark, and this is the first
occurrence then. -/
theorem cutAt?_append {mark before : List Char} (unbordered : IsUnbordered mark)
    (absent : ¬ mark <:+: before) (rest : List Char) :
    cutAt? mark (before ++ (mark ++ rest)) = some (before, rest) := by
  induction before with
  | nil =>
    have starts : mark.isPrefixOf (mark ++ rest) = true :=
      List.isPrefixOf_iff_prefix.mpr (List.prefix_append _ _)
    rw [List.nil_append]
    unfold cutAt?
    rw [if_pos starts, List.drop_left]
  | cons c others inductionHypothesis =>
    have later : ¬ mark <:+: others := fun inside => absent (List.infix_cons inside)
    have notHere : ¬ mark.isPrefixOf (c :: others ++ (mark ++ rest)) = true := by
      rw [List.isPrefixOf_iff_prefix]
      intro starts
      by_cases fits : mark.length ≤ (c :: others).length
      · exact absent (List.prefix_of_prefix_length_le starts (List.prefix_append _ _) fits).isInfix
      · -- the mark reaches over the text into its other occurrence
        obtain ⟨tail, shape⟩ :=
          List.prefix_of_prefix_length_le (List.prefix_append _ _) starts (by omega)
        have overlap : mark.drop (c :: others).length = tail := by
          rw [← shape, List.drop_left]
        have tailStarts : tail <+: mark ++ rest := by
          rw [← List.prefix_append_right_inj (c :: others), shape]
          exact starts
        have shorter : tail.length ≤ mark.length := by
          rw [← overlap, List.length_drop]
          exact Nat.sub_le _ _
        have borders : tail <+: mark :=
          List.prefix_of_prefix_length_le tailStarts (List.prefix_append _ _) shorter
        exact unbordered _ (not_le.mp fits) (Nat.zero_lt_succ _) (overlap ▸ borders)
    rw [List.cons_append, cutAt?]
    rw [List.cons_append] at notHere
    rw [if_neg notHere, inductionHypothesis later, Option.map_some]

theorem cutAt?_eq_none_iff {mark text : List Char} :
    cutAt? mark text = none ↔ ¬ mark <:+: text := by
  rw [← isSome_cutAt?, Option.not_isSome_iff_eq_none]

theorem stripStart?_eq_none_iff {mark text : List Char} :
    stripStart? mark text = none ↔ ¬ mark <+: text := by
  rw [stripStart?, ← List.isPrefixOf_iff_prefix]
  split
  next starts => exact iff_of_false (by simp) (not_not.mpr starts)
  next starts => exact iff_of_true rfl starts

/-- What stands before the first occurrence of a mark, the mark, and what stands behind it are the
whole text. -/
theorem cutAt?_eq_some {mark text before after : List Char} (nonempty : mark ≠ [])
    (found : cutAt? mark text = some (before, after)) :
    text = before ++ (mark ++ after) ∧ ¬ mark <:+: before := by
  have nowhere : ¬ mark <:+: [] := fun inside => nonempty (List.eq_nil_of_infix_nil inside)
  induction text generalizing before with
  | nil =>
    unfold cutAt? at found
    split at found
    next starts =>
      exact absurd (List.prefix_nil.mp (List.isPrefixOf_iff_prefix.mp starts)) nonempty
    next => cases found
  | cons c rest inductionHypothesis =>
    rw [cutAt?] at found
    split at found
    next starts =>
      obtain ⟨rfl, rfl⟩ := Prod.mk.inj (Option.some.inj found)
      obtain ⟨tail, shape⟩ := List.isPrefixOf_iff_prefix.mp starts
      rw [← shape, List.drop_left]
      exact ⟨rfl, nowhere⟩
    next noStart =>
      obtain ⟨⟨others, _⟩, later, same⟩ := Option.map_eq_some_iff.mp found
      obtain ⟨rfl, rfl⟩ := Prod.mk.inj same
      obtain ⟨rfl, absent⟩ := inductionHypothesis later
      refine ⟨rfl, fun inside => ?_⟩
      rcases List.infix_cons_iff.mp inside with starts | further
      · refine noStart (List.isPrefixOf_iff_prefix.mpr (starts.trans ?_))
        exact List.prefix_append (c :: others) _
      · exact absent further

theorem stripStart?_append (mark after : List Char) :
    stripStart? mark (mark ++ after) = some after := by
  have starts : mark.isPrefixOf (mark ++ after) = true :=
    List.isPrefixOf_iff_prefix.mpr (List.prefix_append _ _)
  rw [stripStart?, if_pos starts, List.drop_left]

theorem stripStart?_eq_some {mark text after : List Char}
    (found : stripStart? mark text = some after) : text = mark ++ after := by
  cases starts : mark.isPrefixOf text with
  | true =>
    obtain ⟨tail, rfl⟩ := List.isPrefixOf_iff_prefix.mp starts
    rw [stripStart?_append] at found
    rw [Option.some.inj found]
  | false => simp [stripStart?, starts] at found

/-! ### Texts that go on -/

theorem trimEnd_prefix (before rest : List Char) : trimEnd before <+: trimEnd (before ++ rest) := by
  rw [trimEnd, trimEnd, dropEndWhile, dropEndWhile, List.reverse_append, List.dropWhile_append]
  split
  next => exact List.prefix_rfl
  next =>
    rw [List.reverse_append, List.reverse_reverse]
    refine List.IsPrefix.trans ?_ (List.prefix_append _ _)
    simpa using List.reverse_prefix.mpr (List.dropWhile_suffix (l := before.reverse) isSpace)

end Text

namespace Comment

/-! ### Lines with a comment behind an entry -/

theorem opener_isUnbordered : IsUnbordered opener := by decide

theorem closer_isUnbordered : IsUnbordered closer := by decide

theorem opener_ne_nil : opener ≠ [] := List.cons_ne_nil _ _

theorem closer_ne_nil : closer ≠ [] := List.cons_ne_nil _ _

/-- Cutting a line leaves no `#`. -/
theorem not_mem_takeWhile (line : List Char) : '#' ∉ line.takeWhile (· != '#') := by
  intro member
  have differs := List.all_eq_true.mp List.all_takeWhile '#' member
  exact bne_iff_ne.mp differs rfl

theorem takeWhile_append_of_uncut {text : List Char} (uncut : '#' ∉ text) (rest : List Char) :
    (text ++ rest).takeWhile (· != '#') = text ++ rest.takeWhile (· != '#') :=
  List.takeWhile_append_of_pos fun _ member =>
    bne_iff_ne.mpr (ne_of_mem_of_not_mem member uncut)

/-- Whether a comment that follows a text is one behind an entry: there is an entry, and the line is
not cut and not left out for what stands in the text. -/
structure IsEntry (before : List Char) : Prop where
  visible : isBlank before = false
  uncut : '#' ∉ before
  first : ¬ opener <:+: before
  noDeclaration : ¬ ['<', '!'] <+: trimStart before

/-- A line with a comment behind `before`. -/
def lineWith (before inside after : List Char) : List Char :=
  before ++ (opener ++ (inside ++ (closer ++ after)))

theorem keepText_append {before : List Char} (visible : isBlank before = false)
    (rest : List Char) : keepText (before ++ rest) = some (trimEnd (before ++ rest)) := by
  rw [keepText, if_neg]
  rw [isBlank, List.all_append, ← isBlank, visible, Bool.false_and]
  exact Bool.false_ne_true

theorem isIdle_iff {line : List Char} :
    isIdle line = true ↔
      trimStart line = [] ∨ (trimStart line).head? = some '#' ∨ ['<', '!'] <+: trimStart line := by
  unfold isIdle
  split
  next blank => simp [blank]
  next rest cut => simp [cut]
  next rest declares => simp [declares]
  next visible uncut noDeclaration =>
    refine iff_of_false Bool.false_ne_true ?_
    rintro (blank | cut | ⟨rest, declares⟩)
    · exact visible blank
    · obtain ⟨rest, shape⟩ := List.head?_eq_some_iff.mp cut
      exact uncut rest shape
    · exact noDeclaration rest declares.symm

/-- Without an opener a line leaves no comment open. -/
theorem clean_of_no_opener {line : List Char} (none : ¬ opener <:+: line) :
    (clean .outside line).1 = .outside := by
  have inKept : ¬ opener <:+: line.takeWhile (· != '#') := fun found =>
    none (found.trans (List.takeWhile_prefix _).isInfix)
  have notAtStart : ¬ opener <+: trimStart line := fun starts =>
    none (starts.isInfix.trans (List.dropWhile_suffix _).isInfix)
  rw [clean, stripStart?_eq_none_iff.mpr notAtStart]
  show (cleanBody line).1 = .outside
  rw [cleanBody]
  split
  next => rfl
  next =>
    dsimp only
    rw [cutAt?_eq_none_iff.mpr inKept]

namespace IsEntry

variable {before inside : List Char}

theorem trimStart_before (entry : IsEntry before) (behind : List Char) :
    trimStart (before ++ (opener ++ behind)) = trimStart before ++ (opener ++ behind) :=
  trimStart_append entry.visible _

theorem trimStart_ne_nil (entry : IsEntry before) : trimStart before ≠ [] := by
  rw [ne_eq, trimStart_eq_nil_iff, entry.visible]
  exact Bool.false_ne_true

/-- The opener does not make a line one that starts with `<!`, even behind a lone `<`. -/
theorem noDeclaration_before (entry : IsEntry before) (behind : List Char) :
    ¬ ['<', '!'] <+: trimStart (before ++ (opener ++ behind)) := by
  rw [entry.trimStart_before]
  intro starts
  cases shape : trimStart before with
  | nil => exact entry.trimStart_ne_nil shape
  | cons c others =>
    rw [shape] at starts
    cases others with
    | nil => simp [opener] at starts
    | cons d others =>
      refine entry.noDeclaration ?_
      rw [shape]
      exact List.prefix_of_prefix_length_le starts (List.prefix_append _ _)
        (Nat.le_add_left 2 others.length)

theorem noOpener_before (entry : IsEntry before) (behind : List Char) :
    ¬ opener <+: trimStart (before ++ (opener ++ behind)) := fun starts =>
  entry.noDeclaration_before behind ((List.prefix_append ['<', '!'] ['-', '-']).trans starts)

theorem not_isIdle_before (entry : IsEntry before) (behind : List Char) :
    ¬ isIdle (before ++ (opener ++ behind)) = true := by
  rw [isIdle_iff]
  rintro (blank | cut | declares)
  · rw [entry.trimStart_before] at blank
    exact entry.trimStart_ne_nil (List.append_eq_nil_iff.mp blank).1
  · rw [entry.trimStart_before, List.head?_append_of_ne_nil _ entry.trimStart_ne_nil] at cut
    exact entry.uncut ((List.dropWhile_suffix _).subset (List.mem_of_head? cut))
  · exact entry.noDeclaration_before behind declares

/-- The line is cut before the end of the comment is looked for. -/
theorem cleanBody_eq (entry : IsEntry before) (behind : List Char) :
    cleanBody (before ++ (opener ++ behind)) =
      (cutAt? closer (behind.takeWhile (· != '#'))).elim (.inline before, none) fun parts =>
        (.outside, keepText (before ++ parts.2)) := by
  have kept : (before ++ (opener ++ behind)).takeWhile (· != '#') =
      before ++ (opener ++ behind.takeWhile (· != '#')) := by
    rw [takeWhile_append_of_uncut entry.uncut, takeWhile_append_of_uncut (by decide)]
  rw [cleanBody, if_neg (entry.not_isIdle_before behind)]
  simp only [kept, cutAt?_append opener_isUnbordered entry.first]
  cases cutAt? closer (behind.takeWhile (· != '#')) <;> rfl

theorem clean_eq (entry : IsEntry before) (inside after : List Char) :
    clean .outside (lineWith before inside after) =
      (cutAt? closer ((inside ++ (closer ++ after)).takeWhile (· != '#'))).elim
        (.inline before, none) fun parts => (.outside, keepText (before ++ parts.2)) := by
  have notAtStart := entry.noOpener_before (inside ++ (closer ++ after))
  rw [lineWith, clean, stripStart?_eq_none_iff.mpr notAtStart]
  exact entry.cleanBody_eq _

/-- Without a `#` in it the comment ends where it is closed. -/
theorem clean_of_not_mem (entry : IsEntry before) (closes : ¬ closer <:+: inside)
    (uncut : '#' ∉ inside) (after : List Char) :
    clean .outside (lineWith before inside after) =
      (.outside, some (trimEnd (before ++ after.takeWhile (· != '#')))) := by
  rw [entry.clean_eq, takeWhile_append_of_uncut uncut, takeWhile_append_of_uncut (by decide),
    cutAt?_append closer_isUnbordered closes, Option.elim_some, keepText_append entry.visible]

/-- A `#` in the comment cuts its end off. -/
theorem clean_of_mem (entry : IsEntry before) (closes : ¬ closer <:+: inside)
    (cut : '#' ∈ inside) (after : List Char) :
    clean .outside (lineWith before inside after) = (.inline before, none) := by
  have kept : (inside ++ (closer ++ after)).takeWhile (· != '#') =
      inside.takeWhile (· != '#') := by
    rw [List.takeWhile_append, if_neg]
    intro whole
    have uncut := List.takeWhile_eq_self_iff.mp ((List.takeWhile_prefix _).eq_of_length whole)
    exact bne_iff_ne.mp (uncut '#' cut) rfl
  have unclosed : ¬ closer <:+: inside.takeWhile (· != '#') := fun found =>
    closes (found.trans (List.takeWhile_prefix _).isInfix)
  rw [entry.clean_eq, kept, cutAt?_eq_none_iff.mpr unclosed, Option.elim_none]

end IsEntry

end Comment

namespace LineSource

open Comment

/-! ### What comes behind -/

/-- An open comment hides every line that does not close it. -/
theorem pull_inline_append {before : List Char} {hidden : List (List Char)}
    (stillOpen : ∀ chars ∈ hidden, ¬ closer <:+: chars) (number : Nat) (rest : List PhysicalLine) :
    pull (.inline before) number (hidden.map .text ++ rest) =
      pull (.inline before) (number + hidden.length) rest := by
  induction hidden generalizing number with
  | nil => rfl
  | cons chars others inductionHypothesis =>
    obtain ⟨here, later⟩ := List.forall_mem_cons.mp stillOpen
    have goesOn : clean (.inline before) chars = (.inline before, none) := by
      rw [clean, cutAt?_eq_none_iff.mpr here]
    rw [List.map_cons, List.cons_append, pull, goesOn]
    show pull _ _ _ = _
    rw [inductionHypothesis later, List.length_cons, Nat.add_right_comm, Nat.add_assoc]

/-- The line that closes it completes the cleaned line. -/
theorem pull_inline_close {before last : List Char} (visible : isBlank before = false)
    (closes : ¬ closer <:+: last) (number : Nat) (tail : List Char) (rest : List PhysicalLine) :
    pull (.inline before) number (.text (last ++ (closer ++ tail)) :: rest) =
      (some (.line ⟨number + 1, trimEnd (before ++ tail)⟩), ⟨number + 1, rest⟩) := by
  have completes : clean (.inline before) (last ++ (closer ++ tail)) =
      (.outside, some (trimEnd (before ++ tail))) := by
    rw [clean, cutAt?_append closer_isUnbordered closes]
    show (_, keepText _) = _
    rw [keepText_append visible]
  rw [pull, completes]

/-- A cleaned line is completed by a line below those that have been counted. -/
theorem lt_of_pull {comment : Comment} {number : Nat} {lines : List PhysicalLine} {line : Line}
    {later : LineSource} (call : pull comment number lines = (some (.line line), later)) :
    number < line.number := by
  have spec := pull_spec comment number lines
  rw [call] at spec
  have numbers := Scan.numbers_eventsFrom (Scan.behind comment number) lines
  have member : line ∈ ((Scan.behind comment number).eventsFrom lines).filterMap
      LineEvent.line? := by
    rw [spec.1]
    exact List.mem_filterMap.mpr ⟨.line line, List.mem_cons_self, rfl⟩
  exact (numbers.inRange line member).1

/-! ### What a comment hides -/

/-- The source that is about to read a line with a comment behind `before`. -/
def commented (before inside after : List Char) (number : Nat) (following : List PhysicalLine) :
    LineSource :=
  ⟨number, .text (lineWith before inside after) :: following⟩

/-- Whether a comment behind `before` hides nothing but itself: its line completes a cleaned line by
itself, which starts with what stands before the comment, and a reader goes on with the lines that
follow as if they stood alone. -/
def HidesOnlyItself (before inside after : List Char) (number : Nat)
    (following : List PhysicalLine) : Prop :=
  ∃ text, (commented before inside after number following).next =
      (some (.line ⟨number + 1, text⟩), ⟨number + 1, following⟩) ∧
    trimEnd before <+: text ∧
    ∀ reader : LineReader, reader.Mirrors (commented before inside after number following) →
      reader.next = (some (.line ⟨number + 1, text⟩),
        { reader with pending := events ⟨number + 1, following⟩, number := number + 1 })

variable {before inside : List Char}

theorem next_commented_of_not_mem (entry : IsEntry before) (closes : ¬ closer <:+: inside)
    (uncut : '#' ∉ inside) (after : List Char) (number : Nat) (following : List PhysicalLine) :
    (commented before inside after number following).next =
      (some (.line ⟨number + 1, trimEnd (before ++ after.takeWhile (· != '#'))⟩),
        ⟨number + 1, following⟩) := by
  rw [commented, next, pull, entry.clean_of_not_mem closes uncut]

theorem next_commented_of_mem (entry : IsEntry before) (closes : ¬ closer <:+: inside)
    (cut : '#' ∈ inside) (after : List Char) (number : Nat) (following : List PhysicalLine) :
    (commented before inside after number following).next =
      pull (.inline before) (number + 1) following := by
  rw [commented, next, pull, entry.clean_of_mem closes cut]

/-- A call that reads one line and returns it leaves the others to be read by themselves. -/
theorem events_of_next {source later : LineSource} {event : LineEvent}
    (call : source.next = (some event, later)) : source.events = event :: later.events := by
  have spec := pull_spec .outside source.number source.rest
  rw [next] at call
  rw [call] at spec
  exact spec.1

/-- A comment behind an entry that is closed on its line hides nothing but itself exactly if there
is no `#` in it. Then the text behind it counts up to the first `#`, and the lines that follow are
read as they are when the comment is left out, unless this leaves an opener. If there is a `#` in
the comment, it goes on to the next closer on a line that follows, and the entry with it; if there
is no closer, nothing more comes out. -/
theorem hidesOnlyItself_iff (entry : IsEntry before) (closes : ¬ closer <:+: inside)
    (after : List Char) (number : Nat) (following : List PhysicalLine) :
    (HidesOnlyItself before inside after number following ↔ '#' ∉ inside) ∧
      ('#' ∉ inside → (commented before inside after number following).next =
        (some (.line ⟨number + 1, trimEnd (before ++ after.takeWhile (· != '#'))⟩),
          ⟨number + 1, following⟩)) ∧
      (¬ opener <:+: before ++ after → ∃ own : Option LineEvent,
        events ⟨number, .text (before ++ after) :: following⟩ =
          own.toList ++ events ⟨number + 1, following⟩) ∧
      ('#' ∈ inside → ∀ hidden : List (List Char), (∀ chars ∈ hidden, ¬ closer <:+: chars) →
        (following = hidden.map .text →
          (commented before inside after number following).next =
            (none, ⟨number + 1 + hidden.length, []⟩)) ∧
        ∀ last tail rest, ¬ closer <:+: last →
          following = hidden.map .text ++ .text (last ++ (closer ++ tail)) :: rest →
          (commented before inside after number following).next =
            (some (.line ⟨number + 1 + hidden.length + 1, trimEnd (before ++ tail)⟩),
              ⟨number + 1 + hidden.length + 1, rest⟩)) := by
  refine ⟨⟨?_, fun uncut => ?_⟩, fun uncut => ?_, fun none => ?_, fun cut hidden stillOpen =>
    ⟨?_, ?_⟩⟩
  · rintro ⟨text, call, -⟩ cut
    rw [next_commented_of_mem entry closes cut] at call
    have above : number + 1 < number + 1 := lt_of_pull call
    exact Nat.lt_irrefl _ above
  · have call := next_commented_of_not_mem entry closes uncut after number following
    refine ⟨_, call, trimEnd_prefix _ _, fun reader mirrors => ?_⟩
    rw [LineReader.next, mirrors.pending, events_of_next call]
    rfl
  · exact next_commented_of_not_mem entry closes uncut after number following
  · refine ⟨(clean .outside (before ++ after)).2.map fun text => .line ⟨number + 1, text⟩, ?_⟩
    rw [events, Scan.eventsFrom_text, clean_of_no_opener none]
    rfl
  · rintro rfl
    have whole := @pull_inline_append before hidden stillOpen (number + 1) []
    rw [List.append_nil] at whole
    rw [next_commented_of_mem entry closes cut, whole, pull]
  · rintro last tail rest lastCloses rfl
    rw [next_commented_of_mem entry closes cut, pull_inline_append stillOpen,
      pull_inline_close entry.visible lastCloses]

/-- A `#` in a comment behind an entry makes the comment swallow the lines that follow. -/
theorem hash_swallows_lines :
    PhysicalLine.linesOfText "KEEP <!-- #1 --> TAIL\nNEXT\n".toList =
        [.text (lineWith "KEEP ".toList " #1 ".toList " TAIL".toList), .text "NEXT".toList] ∧
      (IsEntry "KEEP ".toList ∧ ¬ closer <:+: " #1 ".toList) ∧
      (Script.ofText "KEEP <!-- #1 --> TAIL\nNEXT\n").lines = [] ∧
      ¬ HidesOnlyItself "KEEP ".toList " #1 ".toList " TAIL".toList 0 [.text "NEXT".toList] := by
  have call : (commented "KEEP ".toList " #1 ".toList " TAIL".toList 0
      [.text "NEXT".toList]).next = (none, ⟨2, []⟩) := by
    decide +kernel
  refine ⟨by decide +kernel, ⟨⟨by decide +kernel, by decide +kernel, by decide +kernel,
    by decide +kernel⟩, by decide +kernel⟩, by decide +kernel, ?_⟩
  rintro ⟨text, returned, -⟩
  exact nomatch call.symm.trans returned

theorem note_hides_only_itself :
    (IsEntry "some ".toList ∧ ¬ closer <:+: " note ".toList) ∧
      HidesOnlyItself "some ".toList " note ".toList " more # often".toList 3
        [.text "NEXT".toList] ∧
      (commented "some ".toList " note ".toList " more # often".toList 3
          [.text "NEXT".toList]).next =
        (some (.line ⟨4, "some  more".toList⟩), ⟨4, [.text "NEXT".toList]⟩) := by
  have entry : IsEntry "some ".toList :=
    ⟨by decide +kernel, by decide +kernel, by decide +kernel, by decide +kernel⟩
  have closes : ¬ closer <:+: " note ".toList := by decide +kernel
  have uncut : '#' ∉ " note ".toList := by decide +kernel
  have settled := hidesOnlyItself_iff entry closes " more # often".toList 3 [.text "NEXT".toList]
  exact ⟨⟨entry, closes⟩, settled.1.mpr uncut, settled.2.1 uncut⟩

end LineSource

end Codebook
