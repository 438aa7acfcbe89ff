/-
This file defines the paths under which phrases are stored. A step of a path is a token with the
link to the token before it, or the boundary that ends a stretch of the path. Main statement: the
order of steps is a linear order (`instTransOrd`, `instLawfulEqOrd`), so that sets of steps have
one ascending list.
-/

import Codebook.Text.Case

namespace Codebook

open Std

/-- How close a token stands to the token before it. -/
inductive Link
  /-- Written `_`: no words may come between. -/
  | adjacent
  /-- Written as a blank: other words may come between. -/
  | gap
deriving DecidableEq, Repr, Inhabited

/-- The character a link is written as. -/
def Link.symbol : Link → Char
  | adjacent => '_'
  | gap => ' '

/-- What a token of a path stands for. -/
inductive TokenKind
  | word
  /-- Any member of a synset, which is named with its `&`. -/
  | synset
  /-- Any single token: one of the slots `+`, `$` and `%`. -/
  | slot
deriving DecidableEq, Repr

inductive Step
  | token (kind : TokenKind) (text : String) (link : Link)
  /-- Ends a stretch of the path. Every stored path ends with a boundary. -/
  | boundary
deriving DecidableEq, Repr

/-- The steps from the root of a trie to one of its nodes. -/
abbrev Path := List Step

namespace Step

/-- The step for a word as it is spelled in running text. -/
abbrev word (text : String) (link : Link) : Step :=
  token .word text link

/-- The step for a word that starts a path. -/
abbrev root (text : String) : Step :=
  word text .gap

def text? : Step → Option String
  | token _ text _ => some text
  | boundary => none

/-- The link of a token to the token before it. -/
def link? : Step → Option Link
  | token _ _ link => some link
  | boundary => none

/-- A token is shown as its text and a boundary as `#`. -/
def shown (step : Step) : String :=
  step.text?.getD "#"

/-! ### The order of steps -/

/-- Words come before synsets, synsets before slots, and boundaries last. -/
def rank : Step → Nat
  | token .word _ _ => 0
  | token .synset _ _ => 1
  | token .slot _ _ => 2
  | boundary => 3

/-- Adjacent tokens come before those after a gap. -/
def linkRank (step : Step) : Nat :=
  match step.link? with
  | some .gap => 1
  | _ => 0

/-- Steps are ordered by their rank, then by their text, then by their link. -/
instance instOrd : Ord Step where
  compare := compareLex (compareOn rank)
    (compareLex (compareOn fun step => step.text?.getD "") (compareOn linkRank))

instance instTransOrd : TransOrd Step :=
  inferInstanceAs (TransCmp (compareLex (compareOn rank)
    (compareLex (compareOn fun step => step.text?.getD "") (compareOn linkRank))))

/-- The rank, the text and the link determine a step. -/
theorem eq_of_keys {left right : Step} (sameRank : left.rank = right.rank)
    (sameText : left.text?.getD "" = right.text?.getD "")
    (sameLink : left.linkRank = right.linkRank) : left = right := by
  cases left with
  | boundary => rcases right with ⟨_ | _ | _, _, _⟩ | _ <;> simp_all [rank]
  | token kind text link =>
    cases right with
    | boundary => cases kind <;> simp [rank] at sameRank
    | token kind' text' link' =>
      simp only [text?, Option.getD_some] at sameText
      cases kind <;> cases kind' <;> cases link <;> cases link' <;>
        simp_all [rank, linkRank, link?]

instance instLawfulEqOrd : LawfulEqOrd Step where
  compare_self := ReflCmp.compare_self
  eq_of_compare {left right} same := by
    obtain ⟨ranks, rest⟩ := compareLex_eq_eq.mp same
    obtain ⟨texts, links⟩ := compareLex_eq_eq.mp rest
    have ranks : compare left.rank right.rank = .eq := ranks
    have texts : compare (left.text?.getD "") (right.text?.getD "") = .eq := texts
    have links : compare left.linkRank right.linkRank = .eq := links
    exact eq_of_keys (LawfulEqCmp.eq_of_compare ranks) (LawfulEqCmp.eq_of_compare texts)
      (LawfulEqCmp.eq_of_compare links)

end Step

namespace Path

/-- A path as dictionaries write phrases: every step after the first stands behind the symbol of
its link, boundaries behind a blank. -/
def render : Path → String
  | [] => ""
  | first :: rest =>
    rest.foldl (fun shown step => (shown.push (step.link?.getD .gap).symbol) ++ step.shown)
      first.shown

end Path

end Codebook
