/-
This file says which stored paths the words around a verb lead to. At every word the step after a
gap is preferred to the adjacent one, and no choice is taken back, so a text takes one path only
(`Trie.preferredPath`). A stored path that spells the text is that path exactly if no other stored
path goes on with a gap where it goes on with an adjacent word (`Trie.eq_preferredPath`). Of the
patterns on the path of a text, the one furthest to the right and then furthest to the left is found
(`VerbDictionary.matchPattern?_eq`).
-/

import Codebook.Proofs.TrieStorage
import Codebook.Verbs.Dictionary
import Mathlib.Data.List.Forall2

namespace Codebook

/-! ### The last value of a row -/

/-- The value for the greatest number below `bound` that has one. -/
def lastSome? {Value : Type} (value? : Nat → Option Value) (bound : Nat) : Option Value :=
  (List.range bound).reverse.findSome? value?

section LastSome

variable {Value : Type} (value? : Nat → Option Value) (bound : Nat)

theorem lastSome?_succ :
    lastSome? value? (bound + 1) = (value? bound).or (lastSome? value? bound) := by
  rw [lastSome?, List.range_succ, List.reverse_append]
  cases found : value? bound <;> simp [found, lastSome?]

theorem lastSome?_succ_front :
    lastSome? value? (bound + 1) =
      (lastSome? (fun number => value? (number + 1)) bound).or (value? 0) := by
  induction bound with
  | zero => simp [lastSome?]
  | succ bound inductionHypothesis =>
    rw [lastSome?_succ, inductionHypothesis, lastSome?_succ, Option.or_assoc]

variable {value? bound}

theorem lastSome?_eq_none_iff :
    lastSome? value? bound = none ↔ ∀ number < bound, value? number = none := by
  simp [lastSome?, List.findSome?_eq_none_iff]

theorem lastSome?_congr {other? : Nat → Option Value}
    (same : ∀ number < bound, value? number = other? number) :
    lastSome? value? bound = lastSome? other? bound := by
  induction bound with
  | zero => rfl
  | succ bound inductionHypothesis =>
    rw [lastSome?_succ, lastSome?_succ, same bound (Nat.lt_succ_self bound),
      inductionHypothesis fun number below => same number (Nat.lt_succ_of_lt below)]

/-- The last value stands at some number, and at no greater one there is a value. -/
theorem lastSome?_eq_some {value : Value} (found : lastSome? value? bound = some value) :
    ∃ last < bound, value? last = some value ∧
      ∀ number, last < number → number < bound → value? number = none := by
  induction bound with
  | zero => simp [lastSome?] at found
  | succ bound inductionHypothesis =>
    rw [lastSome?_succ, Option.or_eq_some_iff] at found
    rcases found with here | ⟨missing, before⟩
    · exact ⟨bound, Nat.lt_succ_self bound, here, by omega⟩
    · obtain ⟨last, below, same, none⟩ := inductionHypothesis before
      refine ⟨last, Nat.lt_succ_of_lt below, same, fun number above under => ?_⟩
      rcases Nat.lt_succ_iff_lt_or_eq.mp under with inner | rfl
      · exact none number above inner
      · exact missing

end LastSome

/-! ### The path of a text -/

namespace Trie

variable {Payload : Type} (trie : Trie Payload)

/-- The step behind `path` for the next item of a text: for a word the step after a gap if it leads
somewhere and the adjacent one otherwise, for the change of sides a boundary. -/
def preferredStep (path : Path) : Option String → Step
  | none => .boundary
  | some word =>
    if (trie.walk (path ++ [.word (Text.upper word) .gap])).isSome then
      .word (Text.upper word) .gap
    else .word (Text.upper word) .adjacent

/-- The path that the items of a text take from `path`. -/
def preferredPath (path : Path) : List (Option String) → Path
  | [] => path
  | item :: rest => preferredPath (path ++ [trie.preferredStep path item]) rest

theorem preferredPath_append (path : Path) (front back : List (Option String)) :
    trie.preferredPath path (front ++ back) =
      trie.preferredPath (trie.preferredPath path front) back := by
  induction front generalizing path with
  | nil => rfl
  | cons item rest inductionHypothesis => exact inductionHypothesis _

theorem prefix_preferredPath (path : Path) (items : List (Option String)) :
    path <+: trie.preferredPath path items := by
  induction items generalizing path with
  | nil => exact List.prefix_refl path
  | cons item rest inductionHypothesis =>
    exact (List.prefix_append path _).trans (inductionHypothesis _)

@[simp] theorem length_preferredPath (path : Path) (items : List (Option String)) :
    (trie.preferredPath path items).length = path.length + items.length := by
  induction items generalizing path with
  | nil => rfl
  | cons item rest inductionHypothesis =>
    rw [preferredPath, inductionHypothesis]
    simp only [List.length_append, List.length_cons, List.length_nil]
    omega

end Trie

/-- Whether a step stands for an item of a text, whatever its link. -/
def Step.Spells : Step → Option String → Prop
  | .boundary, none => True
  | .token .word text _, some word => text = Text.upper word
  | _, _ => False

namespace Trie

variable {Payload : Type} {trie : Trie Payload}

theorem preferredStep_spells (path : Path) (item : Option String) :
    (trie.preferredStep path item).Spells item := by
  cases item with
  | none => trivial
  | some word =>
    rw [preferredStep]
    split <;> rfl

/-- A step that leads somewhere and spells an item is the preferred one, unless it is an adjacent
word and the same word after a gap leads somewhere as well. -/
theorem eq_preferredStep {path : Path} {step : Step} {item : Option String}
    (leads : (trie.walk (path ++ [step])).isSome) (spells : step.Spells item) :
    step = trie.preferredStep path item ↔
      ∀ text, step = .word text .adjacent → trie.walk (path ++ [.word text .gap]) = none := by
  match step, item, spells with
  | .boundary, none, _ => simp [preferredStep]
  | .token .word _ .gap, some word, rfl => simp [preferredStep, leads]
  | .token .word _ .adjacent, some word, rfl => simp [preferredStep]

/-- Whether the trie nowhere goes on with a gap where `steps` behind `path` go on with the same word
adjacent. -/
def Unforked (trie : Trie Payload) (path steps : Path) : Prop :=
  ∀ front text, front ++ [.word text .adjacent] <+: steps →
    trie.walk (path ++ front ++ [.word text .gap]) = none

theorem unforked_cons {path rest : Path} {step : Step} :
    trie.Unforked path (step :: rest) ↔
      (∀ text, step = .word text .adjacent → trie.walk (path ++ [.word text .gap]) = none) ∧
        trie.Unforked (path ++ [step]) rest := by
  constructor
  · intro unforked
    refine ⟨fun text same => ?_, fun front text isPrefix => ?_⟩
    · simpa [same] using unforked [] text
    · simpa [isPrefix] using unforked (step :: front) text
  · rintro ⟨here, later⟩ (_ | ⟨first, front⟩) text isPrefix
    · have same : step = .word text .adjacent := by simpa [eq_comm] using isPrefix
      simpa using here text same
    · obtain ⟨rfl, inner⟩ := by simpa using isPrefix
      simpa using later front text inner

/-- A path that leads somewhere is the one a text takes exactly if it spells the text and is not
forked. -/
theorem eq_preferredPath {path steps : Path} {items : List (Option String)}
    (leads : (trie.walk (path ++ steps)).isSome) :
    path ++ steps = trie.preferredPath path items ↔
      List.Forall₂ Step.Spells steps items ∧ trie.Unforked path steps := by
  -- the text is read item by item, and `path` takes the steps that have been read
  induction items generalizing path steps with
  | nil =>
    rw [preferredPath, List.forall₂_nil_right_iff, List.append_right_eq_self]
    refine ⟨fun none => ⟨none, ?_⟩, And.left⟩
    intro front text isPrefix
    simp [none] at isPrefix
  | cons item rest inductionHypothesis =>
    cases steps with
    | nil =>
      refine iff_of_false (fun same => ?_) (fun spelled => ?_)
      · simpa using congrArg List.length same
      · simpa using spelled.1.length_eq
    | cons step others =>
      rw [List.append_cons] at leads
      have stepLeads := walk_isSome_of_prefix (List.prefix_append _ others) leads
      rw [unforked_cons, List.forall₂_cons]
      -- a step that is not preferred spoils both sides: the path of the text has left for good
      by_cases preferred : step = trie.preferredStep path item
      · have spells : step.Spells item := preferred ▸ preferredStep_spells path item
        have here := (eq_preferredStep stepLeads spells).mp preferred
        rw [List.append_cons, preferredPath, ← preferred, inductionHypothesis leads]
        exact ⟨fun later => ⟨⟨spells, later.1⟩, here, later.2⟩,
          fun all => ⟨all.1.2, all.2.2⟩⟩
      · refine iff_of_false (fun same => preferred ?_) (fun all => preferred ?_)
        · have isPrefix := trie.prefix_preferredPath (path ++ [trie.preferredStep path item]) rest
          rw [← preferredPath, ← same] at isPrefix
          simpa [eq_comm] using isPrefix
        · exact (eq_preferredStep stepLeads all.1.1).mpr all.2.1

end Trie

/-! ### The pattern that is found -/

/-- What a search meets on its way outward from a verb: `right` words to the right of it, the change
of sides, and `left` words to the left of it. -/
def outward (preceding following : List String) (right left : Nat) : List (Option String) :=
  (following.take right).map some ++ none :: (preceding.reverse.take left).map some

namespace VerbDictionary

variable {verbs : VerbDictionary} {path : Path} {node : Nat}

theorem patternStep?_eq (reached : verbs.patterns.walk path = some node) (word : String) :
    verbs.patternStep? node word =
      verbs.patterns.walk (path ++ [verbs.patterns.preferredStep path (some word)]) := by
  have along (step : Step) :
      verbs.patterns.walk (path ++ [step]) = verbs.patterns.child? node step := by
    rw [Trie.walk_append_step, reached, Option.bind_some]
  rw [patternStep?, Trie.preferredStep]
  simp only [along]
  cases found : verbs.patterns.child? node (.word (Text.upper word) .gap) with
  | some next => simp [found]
  | none => simp

/-- Along some words, the last entry on their path counts. -/
theorem longestAlong_eq (reached : verbs.patterns.walk path = some node)
    (best : Option VerbEntry) (words : List String) :
    verbs.longestAlong node best words =
      (lastSome? (fun number => (verbs.patterns.find (verbs.patterns.preferredPath path
        ((words.take (number + 1)).map some))).head?) words.length).or best := by
  induction words generalizing path node best with
  | nil => rfl
  | cons word rest inductionHypothesis =>
    have onward (number : Nat) :
        verbs.patterns.preferredPath path (((word :: rest).take (number + 1)).map some) =
          verbs.patterns.preferredPath
            (path ++ [verbs.patterns.preferredStep path (some word)])
            ((rest.take number).map some) := rfl
    rw [longestAlong, patternStep?_eq reached, List.length_cons, lastSome?_succ_front]
    simp only [onward]
    cases next : verbs.patterns.walk
        (path ++ [verbs.patterns.preferredStep path (some word)]) with
    | none =>
      have nothing (number : Nat) := Trie.find_eq_nil_of_prefix
        (verbs.patterns.prefix_preferredPath _ ((rest.take number).map some)) next
      simp only [nothing, List.head?_nil, Option.or_none]
      rw [lastSome?_eq_none_iff.mpr fun _ _ => rfl, Option.none_or]
    | some reachedNode =>
      have here : verbs.patterns.find (verbs.patterns.preferredPath
          (path ++ [verbs.patterns.preferredStep path (some word)])
          ((rest.take 0).map some)) = verbs.patterns.terminal reachedNode :=
        Trie.find_of_walk next
      rw [here, Option.or_assoc]
      exact inductionHypothesis next _

/-- What is stored where the words around a verb lead from `path`. The bare anchor, with no word on
either side, does not count. -/
def entryAround? (verbs : VerbDictionary) (path : Path) (preceding following : List String)
    (right left : Nat) : Option VerbEntry :=
  if right = 0 ∧ left = 0 then none
  else (verbs.patterns.find
    (verbs.patterns.preferredPath path (outward preceding following right left))).head?

theorem entryAround?_of_nowhere (preceding : List String) {following : List String} {right : Nat}
    (nowhere : verbs.patterns.walk (verbs.patterns.preferredPath path
      ((following.take right).map some ++ [none])) = none) (left : Nat) :
    verbs.entryAround? path preceding following right left = none := by
  have nothing : verbs.patterns.find
      (verbs.patterns.preferredPath path (outward preceding following right left)) = [] := by
    rw [outward, List.append_cons, Trie.preferredPath_append]
    exact Trie.find_eq_nil_of_prefix (verbs.patterns.prefix_preferredPath _ _) nowhere
  rw [entryAround?, nothing]
  split <;> rfl

/-- To the left of the verb, the entry furthest away counts. -/
theorem patternAt?_eq {preceding following : List String} {right : Nat}
    (reached : verbs.patterns.walk (verbs.patterns.preferredPath path
      ((following.take right).map some)) = some node) :
    verbs.patternAt? node right preceding =
      lastSome? (verbs.entryAround? path preceding following right) (preceding.length + 1) := by
  have turned : verbs.patterns.preferredPath path ((following.take right).map some ++ [none]) =
      verbs.patterns.preferredPath path ((following.take right).map some) ++ [.boundary] :=
    verbs.patterns.preferredPath_append _ _ _
  have turn : verbs.patterns.walk (verbs.patterns.preferredPath path
      ((following.take right).map some ++ [none])) = verbs.patterns.child? node .boundary := by
    rw [turned, Trie.walk_append_step, reached, Option.bind_some]
  rw [patternAt?]
  cases found : verbs.patterns.child? node .boundary with
  | none =>
    have nothing := entryAround?_of_nowhere preceding (turn.trans found)
    exact (lastSome?_eq_none_iff.mpr fun left _ => nothing left).symm
  | some upper =>
    have around (left : Nat) (counts : ¬ (right = 0 ∧ left = 0)) :
        verbs.entryAround? path preceding following right left =
          (verbs.patterns.find (verbs.patterns.preferredPath
            (verbs.patterns.preferredPath path ((following.take right).map some ++ [none]))
            ((preceding.reverse.take left).map some))).head? := by
      rw [entryAround?, if_neg counts, outward, List.append_cons, Trie.preferredPath_append]
    have bare : (if right = 0 then none else (verbs.patterns.terminal upper).head?) =
        verbs.entryAround? path preceding following right 0 := by
      split
      next none => simp [entryAround?, none]
      next some =>
        rw [around 0 (by omega)]
        exact congrArg _ (Trie.find_of_walk (turn.trans found)).symm
    rw [Option.bind_some, longestAlong_eq (turn.trans found), lastSome?_succ_front, bare,
      List.length_reverse]
    congr 1
    exact lastSome?_congr fun left _ => (around (left + 1) (by omega)).symm

/-- A search through the nodes along some words, from the last one on. -/
theorem findSome?_nodesAlong {Value : Type} (reached : verbs.patterns.walk path = some node)
    (value? : Nat × Nat → Option Value) (words : List String) (first : Nat) :
    ((verbs.nodesAlong node words).zipIdx first).reverse.findSome? value? =
      lastSome? (fun number =>
        (verbs.patterns.walk (verbs.patterns.preferredPath path
          ((words.take number).map some))).bind fun last => value? (last, first + number))
        (words.length + 1) := by
  induction words generalizing path node first with
  | nil => simp [nodesAlong, lastSome?, Trie.preferredPath, reached]
  | cons word rest inductionHypothesis =>
    rw [nodesAlong, List.zipIdx_cons, List.reverse_cons, List.findSome?_append, List.length_cons,
      lastSome?_succ_front, patternStep?_eq reached]
    congr 1
    · cases next : verbs.patterns.walk
          (path ++ [verbs.patterns.preferredStep path (some word)]) with
      | none =>
        refine (lastSome?_eq_none_iff.mpr fun number _ => ?_).symm
        have nowhere : verbs.patterns.walk (verbs.patterns.preferredPath path
            (((word :: rest).take (number + 1)).map some)) = none :=
          Trie.walk_eq_none_of_prefix
            (verbs.patterns.prefix_preferredPath _ ((rest.take number).map some)) next
        rw [nowhere, Option.bind_none]
      | some nextNode =>
        refine (inductionHypothesis next (first + 1)).trans (lastSome?_congr fun number _ => ?_)
        rw [Nat.add_assoc, Nat.add_comm 1]
        rfl
    · simp [Trie.preferredPath, reached]

/-- The pattern furthest to the right counts, and among these the one furthest to the left. -/
theorem matchPattern?_eq (reached : verbs.patterns.walk path = some node)
    (preceding following : List String) :
    verbs.matchPattern? node preceding following =
      lastSome? (fun right =>
        lastSome? (verbs.entryAround? path preceding following right) (preceding.length + 1))
        (following.length + 1) := by
  rw [matchPattern?, findSome?_nodesAlong reached]
  refine lastSome?_congr fun right _ => ?_
  cases end? : verbs.patterns.walk
      (verbs.patterns.preferredPath path ((following.take right).map some)) with
  | none =>
    have nowhere : verbs.patterns.walk (verbs.patterns.preferredPath path
        ((following.take right).map some ++ [none])) = none := by
      rw [Trie.preferredPath_append]
      exact Trie.walk_eq_none_of_prefix (verbs.patterns.prefix_preferredPath _ _) end?
    refine (lastSome?_eq_none_iff.mpr fun left _ => ?_).symm
    exact entryAround?_of_nowhere preceding nowhere left
  | some last =>
    rw [Option.bind_some, Nat.zero_add]
    exact patternAt?_eq end?

end VerbDictionary

end Codebook
