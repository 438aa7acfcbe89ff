/-
This file says that agent codes are shown as they are written. The side of a code is told by where
the `~` stands, and `~` may be part of the code as well. A code behind the actor's is read behind
its first character, whatever follows, so it may start and end as it likes; a code before the
actor's was read from a text without `~` in front, so it does not start with one
(`AgentCode.isShowable_of_read`). Main statement: what has been read from the brackets of a line is
shown as a text that reads as the same code with the same side when it is put into brackets
(`AgentCode.shown_code_reads_back`).
-/

import Codebook.Proofs.AgentLines
import Codebook.Proofs.RestrictionForms

namespace Codebook

open Text

/-! ### What is in brackets -/

theorem IsCode.trim_eq_self {code : List Char} (isCode : IsCode code) : trim code = code := by
  have around := isCode.trim_eq (rfl : isBlank [] = true) []
  rwa [List.nil_append, trimEnd_nil, List.append_nil] at around

/-- Text in brackets behind a phrase is the code of the line. -/
theorem splitCode_bracketed {phrase code : List Char} (noBracket : '[' ∉ phrase)
    (isCode : IsCode code) (rest : List Char) :
    splitCode (phrase ++ '[' :: (code ++ ']' :: rest)) =
      (trim phrase, some (String.ofList code)) := by
  have cut := splitAt?_beq_eq_some_iff.mpr
    (⟨rfl, noBracket⟩ : phrase ++ '[' :: (code ++ ']' :: rest) = _ ∧ '[' ∉ phrase)
  have inside : (code ++ ']' :: rest).takeWhile (· != ']') = code := by
    rw [List.takeWhile_append_of_pos fun c member => by
      rw [bne_iff_ne]
      rintro rfl
      exact isCode.noBracket member]
    simp
  rw [splitCode, cut]
  simp only [inside, isCode.trim_eq_self, List.isEmpty_iff, isCode.nonempty, if_false]

/-- What is taken out of brackets is trimmed, and there is no closing bracket in it. -/
theorem of_splitCode {line : List Char} {raw : String} (hasCode : (splitCode line).2 = some raw) :
    trim raw.toList = raw.toList ∧ ']' ∉ raw.toList := by
  unfold splitCode at hasCode
  split at hasCode
  next => cases hasCode
  next before after _ =>
    dsimp only at hasCode
    split at hasCode
    next => cases hasCode
    next =>
      obtain rfl := Option.some.inj hasCode
      rw [String.toList_ofList]
      refine ⟨trim_trim _, fun member => ?_⟩
      have kept := List.mem_takeWhile_imp (trim_subset _ member)
      simp at kept

/-- A trimmed text does not start with white space. -/
theorem isSpace_head?_trim {text : List Char} {c : Char} (starts : (trim text).head? = some c) :
    isSpace c = false := by
  cases shape : trimStart text with
  | nil =>
    rw [trim, shape, trimEnd_nil] at starts
    cases starts
  | cons first rest =>
    have kept := List.head?_dropWhile_not isSpace text
    rw [← trimStart, shape] at kept
    have notSpace : isSpace first = false := by simpa using kept
    have same : first = c := by
      rw [trim, shape, ← List.nil_append (first :: rest), trimEnd_append_cons notSpace] at starts
      exact Option.some.inj starts
    rwa [same] at notSpace

namespace AgentCode

/-! ### The side of a code -/

/-- How the side of a code is told from a text: by a `~` in front, else by one at the end, and
without either the code is written after the actor's. Any other `~` is left in the code. -/
inductive TellsSide : List Char → List Char → Side → Prop
  | front (code : List Char) : TellsSide ('~' :: code) code .after
  | back {code : List Char} (unmarked : (code ++ ['~']).head? ≠ some '~') :
    TellsSide (code ++ ['~']) code .before
  | unmarked {code : List Char} (notFront : code.head? ≠ some '~')
    (notBack : code.getLast? ≠ some '~') : TellsSide code code .after

theorem exists_tellsSide (raw : List Char) : ∃ code side, TellsSide raw code side := by
  by_cases inFront : raw.head? = some '~'
  · obtain ⟨rest, rfl⟩ := List.head?_eq_some_iff.mp inFront
    exact ⟨rest, .after, .front rest⟩
  by_cases atEnd : raw.getLast? = some '~'
  · obtain ⟨code, rfl⟩ := List.getLast?_eq_some_iff.mp atEnd
    exact ⟨code, .before, .back inFront⟩
  · exact ⟨raw, .after, .unmarked inFront atEnd⟩

variable {raw code : List Char} {side : Side}

/-- A code is what is left without the `~` and the white space around it, if that is a word. -/
theorem TellsSide.read_eq (tells : TellsSide raw code side) :
    AgentCode.read raw =
      if (trim code).isEmpty ∨ (trim code).any isSpace
        then .error (.badAgentCode (String.ofList raw))
        else .ok ⟨String.ofList (trim code), side⟩ := by
  cases tells with
  | front => rfl
  | back unmarked =>
    unfold AgentCode.read
    split
    next told toldSide same =>
      split at same
      next rest shape =>
        rw [shape] at unmarked
        exact absurd rfl unmarked
      next =>
        rw [stripLast?, if_pos List.getLast?_concat, List.dropLast_concat] at same
        obtain ⟨rfl, rfl⟩ := Prod.mk.inj same
        rfl
  | unmarked notFront notBack =>
    unfold AgentCode.read
    split
    next told toldSide same =>
      split at same
      next rest => exact absurd rfl notFront
      next =>
        rw [stripLast?, if_neg notBack] at same
        obtain ⟨rfl, rfl⟩ := Prod.mk.inj same
        rfl

/-! ### Codes that can be shown -/

/-- Whether a code can be told from its side when it is shown: a code before the actor's does not
start with `~`. -/
structure IsShowable (agent : AgentCode) : Prop where
  isCode : IsCode agent.code.toList
  unmarked : agent.side = .before → agent.code.toList.head? ≠ some '~'

/-- A text that starts with no white space and no `~` leaves a code that does not either. -/
theorem head?_trim_ne_of_back (trimmed : trim (code ++ ['~']) = code ++ ['~'])
    (unmarked : (code ++ ['~']).head? ≠ some '~') : (trim code).head? ≠ some '~' := by
  cases code with
  | nil => exact absurd rfl unmarked
  | cons first rest =>
    have notSpace : isSpace first = false := by
      have starts : (trim (first :: rest ++ ['~'])).head? = some first := by
        rw [trimmed]
        rfl
      exact isSpace_head?_trim starts
    rwa [head?_trim notSpace]

/-- What has been read from a trimmed text can be shown. -/
theorem isShowable_of_read {agent : AgentCode} (trimmed : trim raw = raw)
    (noBracket : ']' ∉ raw) (isRead : AgentCode.read raw = .ok agent) : agent.IsShowable := by
  obtain ⟨code, side, tells⟩ := exists_tellsSide raw
  rw [tells.read_eq] at isRead
  split at isRead
  next => cases isRead
  next isWord =>
    rw [not_or, List.isEmpty_iff, Bool.not_eq_true, List.any_eq_false] at isWord
    obtain rfl := Except.ok.inj isRead
    have kept : code ⊆ raw := by
      cases tells with
      | front => exact List.subset_cons_self _ _
      | back => exact List.subset_append_left _ _
      | unmarked => exact List.Subset.refl _
    refine ⟨⟨?nonempty, ?isWord, ?noBracket⟩, ?start⟩
    all_goals rw [String.toList_ofList]
    case nonempty => exact isWord.1
    case isWord => exact fun c member => Bool.eq_false_iff.mpr (isWord.2 c member)
    case noBracket => exact fun member => noBracket (kept (trim_subset code member))
    case start =>
      intro isBefore
      cases tells with
      | back unmarked => exact head?_trim_ne_of_back trimmed unmarked
      | front | unmarked => cases isBefore

/-! ### Reading what is shown -/

/-- The place of the `~` tells the side of a code that can be shown. -/
theorem IsShowable.tellsSide {agent : AgentCode} (isShowable : agent.IsShowable) :
    TellsSide agent.shown.toList agent.code.toList agent.side := by
  rw [shown]
  cases side : agent.side with
  | after =>
    rw [String.toList_append]
    exact .front agent.code.toList
  | before =>
    rw [String.toList_append]
    refine .back ?_
    rw [List.head?_append_of_ne_nil _ isShowable.isCode.nonempty]
    exact isShowable.unmarked side

theorem IsShowable.read_shown {agent : AgentCode} (isShowable : agent.IsShowable) :
    AgentCode.read agent.shown.toList = .ok agent := by
  have isCode := isShowable.isCode
  rw [isShowable.tellsSide.read_eq, isCode.trim_eq_self, if_neg, String.ofList_toList]
  rintro (isEmpty | hasSpace)
  · exact isCode.nonempty (List.isEmpty_iff.mp isEmpty)
  · obtain ⟨c, member, space⟩ := List.any_eq_true.mp hasSpace
    rw [isCode.isWord c member] at space
    cases space

/-- Behind or before `~` a code is still one that stands in brackets. -/
theorem IsShowable.isCode_shown {agent : AgentCode} (isShowable : agent.IsShowable) :
    IsCode agent.shown.toList := by
  have marked : ∀ c ∈ agent.shown.toList, c = '~' ∨ c ∈ agent.code.toList := by
    intro c member
    rw [shown] at member
    split at member
    all_goals simpa [or_comm] using member
  refine ⟨?_, fun c member => ?_, fun member => ?_⟩
  · rw [shown]
    split <;> simp
  · rcases marked c member with rfl | member
    · decide
    · exact isShowable.isCode.isWord c member
  · rcases marked _ member with isMark | member
    · cases isMark
    · exact isShowable.isCode.noBracket member

/-- What has been read from the brackets of a line is shown as a text that reads as the same code
with the same side, and it is what is found when it is put into brackets behind a phrase. -/
theorem shown_code_reads_back {line : List Char} {raw : String} {agent : AgentCode}
    (hasCode : (splitCode line).2 = some raw) (isRead : AgentCode.read raw.toList = .ok agent)
    {phrase : List Char} (noBracket : '[' ∉ phrase) (rest : List Char) :
    splitCode (phrase ++ '[' :: (agent.shown.toList ++ ']' :: rest)) =
        (trim phrase, some agent.shown) ∧
      AgentCode.read agent.shown.toList = .ok agent := by
  obtain ⟨trimmed, notClosed⟩ := of_splitCode hasCode
  have isShowable := isShowable_of_read trimmed notClosed isRead
  constructor
  · rw [splitCode_bracketed noBracket isShowable.isCode_shown, String.ofList_toList]
  · exact isShowable.read_shown

/-- A `~` of its own stays with the code, although the white space behind it is lost. -/
theorem shown_marked_code_reads_back :
    splitCode "POLICE FORCE [A~~]!".toList = ("POLICE FORCE".toList, some "A~~") ∧
      AgentCode.read "A~~".toList = .ok ⟨"A~", .before⟩ := by
  have hasCode : (splitCode "WATCHDOG_ [ A~ ~ ] \x7bWATCHDOGS\x7d".toList).2 = some "A~ ~" := by
    decide +kernel
  have isRead : AgentCode.read "A~ ~".toList = .ok ⟨"A~", .before⟩ := by decide +kernel
  have noBracket : '[' ∉ "POLICE FORCE ".toList := by decide
  exact shown_code_reads_back hasCode isRead noBracket "!".toList

end AgentCode

end Codebook
