/-
This file says when a codec restores a value: reading what was written gives the value back and
leaves whatever follows untouched. Each way of combining codecs keeps this, value by value. The
conditions that remain are those under which a number fits into its bytes and a length into its
count, and for maps that their entries come back in the order in which they were written.
-/

import Codebook.Snapshot.Codec

namespace Codebook

open Std

/-! ### Maps from their entries -/

namespace SortedMap

variable {Key Value : Type} [Ord Key]

/-- An entry whose key is above all others goes to the end. -/
theorem insertEntry_of_above [TransOrd Key] {key : Key} {value : Value}
    {entries : List (Key × Value)} (above : ∀ entry ∈ entries, compare entry.1 key = .lt) :
    insertEntry key value entries = entries ++ [(key, value)] := by
  induction entries with
  | nil => rfl
  | cons first rest inductionHypothesis =>
    have after : compare key first.1 = .gt :=
      OrientedCmp.gt_iff_lt.mpr (above first List.mem_cons_self)
    rw [insertEntry, after, List.cons_append,
      ← inductionHypothesis fun entry member => above entry (List.mem_cons_of_mem _ member)]

variable [TransOrd Key] [LawfulEqOrd Key]

theorem entries_foldl_insert {entries : List (Key × Value)} {map : SortedMap Key Value}
    (ascending : (map.entries ++ entries).Pairwise fun left right =>
      compare left.1 right.1 = .lt) :
    (entries.foldl (fun map entry => map.insert entry.1 entry.2) map).entries =
      map.entries ++ entries := by
  induction entries generalizing map with
  | nil => simp
  | cons entry rest inductionHypothesis =>
    have above : ∀ other ∈ map.entries, compare other.1 entry.1 = .lt := fun other member =>
      (List.pairwise_append.mp ascending).2.2 other member entry List.mem_cons_self
    have grown : (map.insert entry.1 entry.2).entries = map.entries ++ [entry] :=
      insertEntry_of_above above
    rw [List.foldl_cons, inductionHypothesis (by rw [grown]; simpa using ascending), grown]
    simp

/-- A map is the map of its entries. -/
theorem ofList_entries (map : SortedMap Key Value) : ofList map.entries = map := by
  have ascending : ((empty : SortedMap Key Value).entries ++ map.entries).Pairwise
      fun left right => compare left.1 right.1 = .lt := map.ascending
  exact ext (entries_foldl_insert ascending)

end SortedMap

namespace Codec

variable {Value Other : Type}

/-- Reading gives back the value that was written, whatever follows it. -/
def Restores (codec : Codec Value) (value : Value) : Prop :=
  ∀ rest, codec.read (codec.write value ++ rest) = .ok (value, rest)

/-! ### Combining codecs -/

theorem restores_unit : unit.Restores () := fun _ => rfl

theorem restores_pair {first : Codec Value} {second : Codec Other} {value : Value × Other}
    (left : first.Restores value.1) (right : second.Restores value.2) :
    (first.pair second).Restores value := by
  intro rest
  simp only [pair, List.append_assoc, left _, right _, Except.map]

/-- Another type has its values restored if packing undoes unpacking. -/
theorem restores_convert {codec : Codec Value} {pack : Value → Other} {unpack : Other → Value}
    {value : Other} (restored : codec.Restores (unpack value))
    (inverse : pack (unpack value) = value) : (codec.convert pack unpack).Restores value := by
  intro rest
  simp only [convert, restored rest, Except.map, inverse]

/-! ### Numbers -/

/-- A number comes back if it has no more digits to the base 256 than are written. -/
theorem restores_nat {width value : Nat} (fits : value < Nat.pow 256 width) :
    (nat width).Restores value := by
  intro rest
  show readNat width (writeNat width value ++ rest) = .ok (value, rest)
  induction width generalizing value with
  | zero =>
    have isZero : value = 0 := Nat.lt_one_iff.mp fits
    rw [isZero]
    rfl
  | succ width inductionHypothesis =>
    have highFits : value / 256 < Nat.pow 256 width := by
      rw [Nat.div_lt_iff_lt_mul (by decide)]
      exact fits
    rw [writeNat, List.cons_append, readNat, inductionHypothesis highFits]
    show Except.ok ((UInt8.ofNat value).toNat + 256 * (value / 256), rest) = _
    rw [UInt8.toNat_ofNat', Nat.mod_add_div]

theorem restores_count {value : Nat} (fits : value < UInt64.size) : count.Restores value :=
  restores_nat fits

/-- An integer comes back if it has a representation of 64 bits in two's complement. -/
theorem restores_int {value : Int} (low : Int64.minValue.toInt ≤ value)
    (high : value ≤ Int64.maxValue.toInt) : int.Restores value := by
  rw [Int64.toInt_minValue] at low
  rw [Int64.toInt_maxValue] at high
  refine restores_convert (restores_count ?_) ?_
  · rw [UInt64.size]
    omega
  · rw [UInt64.size]
    split <;> omega

/-! ### Choices -/

theorem restores_tagged {tag : Value → Nat} {alternative : Nat → Option (Codec Value)}
    {value : Value} {codec : Codec Value} (fits : tag value < UInt32.size)
    (chosen : alternative (tag value) = some codec) (restored : codec.Restores value) :
    (tagged tag alternative).Restores value := by
  intro rest
  have number : (nat 4).Restores (tag value) := restores_nat fits
  simp only [tagged, chosen, Option.map_some, Option.getD_some, List.append_assoc, number _]
  exact restored rest

theorem restores_oneOf [DecidableEq Value] {values : List Value} {value : Value}
    (fits : values.length < UInt32.size) (listed : value ∈ values) : (oneOf values).Restores value := by
  intro rest
  have bound : values.idxOf value < values.length := List.idxOf_lt_length_of_mem listed
  have number : (nat 4).Restores (values.idxOf value) := restores_nat (Nat.lt_trans bound fits)
  have found : values[values.idxOf value]? = some value := by
    rw [List.getElem?_eq_getElem bound, List.getElem_idxOf]
  simp only [oneOf, number _, found]

theorem restores_option {codec : Codec Value} {value : Option Value}
    (restored : ∀ present ∈ value, codec.Restores present) : codec.option.Restores value := by
  intro rest
  cases value with
  | none => rfl
  | some present =>
    show (codec.read (codec.write present ++ rest)).map _ = _
    rw [restored present rfl]
    rfl

/-! ### Sequences -/

theorem readMore_write {codec : Codec Value} (values : List Value) (earlier : Array Value)
    (rest : List UInt8) (restored : ∀ value ∈ values, codec.Restores value) :
    readMore codec values.length earlier (values.flatMap codec.write ++ rest) =
      .ok (earlier.toList ++ values, rest) := by
  induction values generalizing earlier with
  | nil => simp [readMore]
  | cons value values inductionHypothesis =>
    have first : codec.Restores value := restored value List.mem_cons_self
    have others : ∀ other ∈ values, codec.Restores other := fun other member =>
      restored other (List.mem_cons_of_mem _ member)
    simp only [List.length_cons, readMore, List.flatMap_cons, List.append_assoc, first _,
      inductionHypothesis _ others]
    simp

theorem restores_list {codec : Codec Value} {values : List Value}
    (fits : values.length < UInt64.size) (restored : ∀ value ∈ values, codec.Restores value) :
    codec.list.Restores values := by
  intro rest
  simp only [list, List.append_assoc, restores_count fits _,
    readMore_write values #[] rest restored, List.nil_append]

theorem length_utf8 (text : String) : (utf8 text).length = text.utf8ByteSize := by
  simp [utf8]

/-- The UTF-8 bytes of a text decode to it. -/
theorem fromUTF8?_utf8 (text : String) : String.fromUTF8? ⟨(utf8 text).toArray⟩ = some text := by
  have bytes : (⟨(utf8 text).toArray⟩ : ByteArray) = text.toByteArray := by simp [utf8]
  rw [bytes, String.fromUTF8?, dif_pos text.isValidUTF8]
  rfl

theorem restores_text {text : String} (fits : text.utf8ByteSize < UInt64.size) :
    Codec.text.Restores text := by
  intro rest
  have length : count.Restores (utf8 text).length := restores_count (by rwa [length_utf8])
  simp only [Codec.text, List.append_assoc, length _, List.take_left, if_true, fromUTF8?_utf8,
    List.drop_left]

/-- A map comes back: its entries were written in ascending order of the keys. -/
theorem restores_sortedMap [Ord Value] [TransOrd Value] [LawfulEqOrd Value] {key : Codec Value}
    {value : Codec Other} {map : SortedMap Value Other} (fits : map.size < UInt64.size)
    (restored : ∀ entry ∈ map.entries, key.Restores entry.1 ∧ value.Restores entry.2) :
    (sortedMap key value).Restores map :=
  restores_convert
    (restores_list fits fun entry member =>
      restores_pair (restored entry member).1 (restored entry member).2)
    map.ofList_entries

theorem restores_sortedSet [Ord Value] [TransOrd Value] [LawfulEqOrd Value] {key : Codec Value}
    {set : SortedSet Value} (fits : set.size < UInt64.size)
    (restored : ∀ member ∈ set.keys, key.Restores member) : (sortedSet key).Restores set := by
  have length : set.keys.length = set.size := List.length_map _
  refine restores_convert (restores_list (by rwa [length]) restored) ?_
  have entries : set.keys.map (·, ()) = set.entries := by
    rw [SortedMap.keys, List.map_map]
    exact List.map_id _
  rw [entries, SortedMap.ofList_entries]

end Codec

end Codebook
