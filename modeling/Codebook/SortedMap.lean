/-
This file provides finite maps that are kept as lists in ascending order of their keys. The order
is part of the type, so two maps with the same entries are equal, and the entries can be written
out in key order without sorting. Main statements: `get?_insert_self` and `get?_insert_of_ne` say
what a lookup finds after an insertion.
-/

namespace Codebook

open Std

/-- A finite map whose entries stand in strictly ascending order of their keys. -/
structure SortedMap (Key Value : Type) [Ord Key] where
  entries : List (Key × Value)
  ascending : entries.Pairwise fun left right => compare left.1 right.1 = .lt
deriving DecidableEq

namespace SortedMap

variable {Key Value : Type} [Ord Key]

/-! ### Operations on lists of entries -/

/-- Puts an entry into its place in an ascending list, over an entry with the same key. -/
def insertEntry (key : Key) (value : Value) : List (Key × Value) → List (Key × Value)
  | [] => [(key, value)]
  | entry :: rest =>
    match compare key entry.1 with
    | .lt => (key, value) :: entry :: rest
    | .eq => (key, value) :: rest
    | .gt => entry :: insertEntry key value rest

/-- The value of the entry with the given key in an ascending list. -/
def lookupEntry (key : Key) : List (Key × Value) → Option Value
  | [] => none
  | entry :: rest =>
    match compare key entry.1 with
    | .lt => none
    | .eq => some entry.2
    | .gt => lookupEntry key rest

/-- The entries after an insertion are the new one and some of those before. -/
theorem mem_insertEntry {key : Key} {value : Value} {entries : List (Key × Value)}
    {entry : Key × Value} (member : entry ∈ insertEntry key value entries) :
    entry = (key, value) ∨ entry ∈ entries := by
  induction entries with
  | nil => simpa [insertEntry] using member
  | cons first rest inductionHypothesis =>
    rw [insertEntry] at member
    split at member
    · simpa using member
    · rcases List.mem_cons.mp member with rfl | member
      · exact .inl rfl
      · exact .inr (List.mem_cons_of_mem _ member)
    · rcases List.mem_cons.mp member with rfl | member
      · exact .inr List.mem_cons_self
      · exact (inductionHypothesis member).imp id (List.mem_cons_of_mem _)

/-- Insertion keeps the entries ascending. -/
theorem insertEntry_ascending [TransOrd Key] [LawfulEqOrd Key] (key : Key) (value : Value)
    {entries : List (Key × Value)}
    (ascending : entries.Pairwise fun left right => compare left.1 right.1 = .lt) :
    (insertEntry key value entries).Pairwise fun left right =>
      compare left.1 right.1 = .lt := by
  induction entries with
  | nil => simp [insertEntry]
  | cons first rest inductionHypothesis =>
    have ⟨below, restAscending⟩ := List.pairwise_cons.mp ascending
    rw [insertEntry]
    split
    next before =>
      refine List.pairwise_cons.mpr ⟨fun entry member => ?_, ascending⟩
      rcases List.mem_cons.mp member with rfl | member
      · exact before
      · exact TransCmp.lt_trans before (below entry member)
    next same =>
      refine List.pairwise_cons.mpr ⟨fun entry member => ?_, restAscending⟩
      rw [LawfulEqCmp.eq_of_compare same]
      exact below entry member
    next after =>
      refine List.pairwise_cons.mpr ⟨fun entry member => ?_, inductionHypothesis restAscending⟩
      rcases mem_insertEntry member with rfl | member
      · exact OrientedCmp.gt_iff_lt.mp after
      · exact below entry member

/-! ### The maps -/

/-- The map without entries. -/
def empty : SortedMap Key Value :=
  ⟨[], List.Pairwise.nil⟩

/-- Binds `key` to `value`, in place of what it was bound to. -/
def insert [TransOrd Key] [LawfulEqOrd Key] (map : SortedMap Key Value) (key : Key)
    (value : Value) : SortedMap Key Value :=
  ⟨insertEntry key value map.entries, insertEntry_ascending key value map.ascending⟩

/-- The value `key` is bound to. -/
def get? (map : SortedMap Key Value) (key : Key) : Option Value :=
  lookupEntry key map.entries

/-- Whether `key` is bound. -/
def contains (map : SortedMap Key Value) (key : Key) : Bool :=
  (map.get? key).isSome

/-- The keys, in ascending order. -/
def keys (map : SortedMap Key Value) : List Key :=
  map.entries.map (·.1)

def size (map : SortedMap Key Value) : Nat :=
  map.entries.length

/-- The map with the given entries; of two for the same key, the later counts. -/
def ofList [TransOrd Key] [LawfulEqOrd Key] (entries : List (Key × Value)) :
    SortedMap Key Value :=
  entries.foldl (fun map entry => map.insert entry.1 entry.2) empty

instance : Inhabited (SortedMap Key Value) := ⟨empty⟩

/-- Two maps with the same entries are equal. -/
@[ext] theorem ext {left right : SortedMap Key Value} (same : left.entries = right.entries) :
    left = right := by
  cases left
  cases right
  cases same
  rfl

@[simp] theorem get?_empty (key : Key) : (empty : SortedMap Key Value).get? key = none := rfl

/-! ### Lookups after an insertion -/

variable [TransOrd Key] [LawfulEqOrd Key]

/-- A lookup finds what was just inserted. -/
@[simp] theorem get?_insert_self (map : SortedMap Key Value) (key : Key) (value : Value) :
    (map.insert key value).get? key = some value := by
  show lookupEntry key (insertEntry key value map.entries) = some value
  induction map.entries with
  | nil => simp [insertEntry, lookupEntry]
  | cons first rest inductionHypothesis =>
    rw [insertEntry]
    split
    · simp [lookupEntry]
    · simp [lookupEntry]
    next after => simp [lookupEntry, after, inductionHypothesis]

/-- An insertion changes no other key. -/
theorem get?_insert_of_ne (map : SortedMap Key Value) {key other : Key} (value : Value)
    (different : other ≠ key) : (map.insert key value).get? other = map.get? other := by
  have apart : compare other key ≠ .eq := fun same =>
    different (LawfulEqCmp.eq_of_compare same)
  show lookupEntry other (insertEntry key value map.entries) = lookupEntry other map.entries
  have ascending := map.ascending
  revert ascending
  induction map.entries with
  | nil =>
    intro _
    simp only [insertEntry, lookupEntry]
    split <;> simp_all
  | cons first rest inductionHypothesis =>
    intro ascending
    have ⟨_, restAscending⟩ := List.pairwise_cons.mp ascending
    rw [insertEntry]
    split
    next before =>
      rw [lookupEntry]
      split
      next below =>
        have : compare other first.1 = .lt := TransCmp.lt_trans below before
        simp [lookupEntry, this]
      next same => exact absurd same apart
      · rfl
    next same =>
      have equal : key = first.1 := LawfulEqCmp.eq_of_compare same
      subst equal
      rw [lookupEntry, lookupEntry]
      split <;> simp_all
    next after =>
      rw [lookupEntry, lookupEntry, inductionHypothesis restAscending]

@[simp] theorem contains_insert_self (map : SortedMap Key Value) (key : Key) (value : Value) :
    (map.insert key value).contains key = true := by
  simp [contains]

/-- An insertion unbinds no key. -/
theorem contains_insert_of_contains {map : SortedMap Key Value} {other : Key}
    (bound : map.contains other = true) (key : Key) (value : Value) :
    (map.insert key value).contains other = true := by
  by_cases same : other = key
  · simp [same]
  · rwa [contains, get?_insert_of_ne map value same]

/-! ### Entries -/

/-- In an ascending list a lookup finds exactly what is there. -/
theorem lookupEntry_eq_some_iff {entries : List (Key × Value)}
    (ascending : entries.Pairwise fun left right => compare left.1 right.1 = .lt) {key : Key}
    {value : Value} : lookupEntry key entries = some value ↔ (key, value) ∈ entries := by
  induction entries with
  | nil => simp [lookupEntry]
  | cons first rest inductionHypothesis =>
    have ⟨below, restAscending⟩ := List.pairwise_cons.mp ascending
    rw [lookupEntry, List.mem_cons]
    split
    next before =>
      have notFirst : (key, value) ≠ first := by
        rintro rfl
        simp [ReflCmp.compare_self] at before
      have notRest : (key, value) ∉ rest := fun member => by
        have circle : compare key key = .lt := TransCmp.lt_trans before (below _ member)
        simp [ReflCmp.compare_self] at circle
      simp [notFirst, notRest]
    next same =>
      have equal : key = first.1 := LawfulEqCmp.eq_of_compare same
      have notRest : (key, value) ∉ rest := fun member => by
        have less : compare first.1 key = .lt := below _ member
        simp [equal, ReflCmp.compare_self] at less
      rw [or_iff_left notRest]
      simp [equal, Prod.ext_iff, eq_comm]
    next after =>
      have notFirst : (key, value) ≠ first := by
        rintro rfl
        simp [ReflCmp.compare_self] at after
      simp [notFirst, inductionHypothesis restAscending]

/-- The entries are the keys with the values they are bound to. -/
theorem mem_entries_iff {map : SortedMap Key Value} {key : Key} {value : Value} :
    (key, value) ∈ map.entries ↔ map.get? key = some value :=
  (lookupEntry_eq_some_iff map.ascending).symm

end SortedMap

/-- A finite set, kept in ascending order. -/
abbrev SortedSet (Key : Type) [Ord Key] := SortedMap Key Unit

end Codebook
