/-
This file says what becomes of a snapshot that breaks off. A reader goes through its bytes from
front to back: what it reads depends on what it takes off the front, whatever stands behind that, so
it cannot be content with a part of what was written (`Reader.IsSequential`). Main statement: of the
bytes of a snapshot every proper beginning is refused, and it is refused as bytes that end too early
or stand for nothing, unless the snapshot is larger than any file (`Snapshot.beginning_refused`).
-/

import Codebook.Proofs.SnapshotRoundTrip
import Codebook.Workspace

namespace Codebook

/-! ### Readers -/

/-- Takes a value off the front of bytes. -/
abbrev Reader (Value : Type) :=
  StateT (List UInt8) (Except ReadFault) Value

namespace Reader

variable {Value Other : Type}

/-- A reader goes through bytes from front to back. The value read is that of the bytes taken off
the front, whatever stands behind them. If a text is announced for which there is no room, only
bytes that fill this room can be read in their place. -/
structure IsSequential (reader : Reader Value) : Prop where
  takes {bytes rest : List UInt8} {value : Value} (read : reader.run bytes = .ok (value, rest)) :
    ∃ taken, bytes = taken ++ rest ∧ ∀ behind, reader.run (taken ++ behind) = .ok (value, behind)
  noRoom {bytes behind rest : List UInt8} {value : Value}
    (announced : reader.run bytes = .error .noRoom)
    (read : reader.run (bytes ++ behind) = .ok (value, rest)) :
    Codec.textLimit ≤ (bytes ++ behind).length

theorem isSequential_pure (value : Value) : (pure value : Reader Value).IsSequential where
  takes read := by
    obtain ⟨rfl, rfl⟩ := Prod.mk.inj (Except.ok.inj read)
    exact ⟨[], rfl, fun _ => rfl⟩
  noRoom announced := nomatch announced

theorem isSequential_malformed : (throw .malformed : Reader Value).IsSequential where
  takes read := nomatch read
  noRoom announced := nomatch announced

/-- One reader goes on where another one stops. -/
theorem run_bind (first : Reader Value) (further : Value → Reader Other) (bytes : List UInt8) :
    (first >>= further).run bytes =
      match first.run bytes with
      | .error fault => .error fault
      | .ok (value, rest) => (further value).run rest := by
  rw [StateT.run_bind]
  cases first.run bytes <;> rfl

theorem isSequential_bind {first : Reader Value} {further : Value → Reader Other}
    (isFirst : first.IsSequential) (areFurther : ∀ value, (further value).IsSequential) :
    (first >>= further).IsSequential where
  takes {bytes rest other} read := by
    rw [run_bind] at read
    split at read
    next => cases read
    next value middle firstRead =>
      obtain ⟨taken, rfl, again⟩ := isFirst.takes firstRead
      obtain ⟨more, rfl, againMore⟩ := (areFurther value).takes read
      refine ⟨taken ++ more, (List.append_assoc _ _ _).symm, fun behind => ?_⟩
      rw [List.append_assoc, run_bind, again]
      exact againMore behind
  noRoom {bytes behind rest other} announced read := by
    rw [run_bind] at announced read
    split at announced
    next fault firstRead =>
      obtain rfl := Except.error.inj announced
      split at read
      next => cases read
      next value middle firstReadAll => exact isFirst.noRoom firstRead firstReadAll
    next value middle firstRead =>
      obtain ⟨taken, rfl, again⟩ := isFirst.takes firstRead
      rw [List.append_assoc, again] at read
      have large := (areFurther value).noRoom announced read
      rw [List.append_assoc, List.length_append]
      exact Nat.le_trans large (Nat.le_add_left _ _)

end Reader

namespace Codec

variable {Value Other : Type}

/-- The reader of a codec. -/
def reader (codec : Codec Value) : Reader Value :=
  codec.read

theorem run_reader (codec : Codec Value) (bytes : List UInt8) :
    codec.reader.run bytes = codec.read bytes := rfl

/-- A codec whose reader is sequential. -/
abbrev IsSequential (codec : Codec Value) : Prop :=
  codec.reader.IsSequential

/-- What was written can be read from all of its bytes only. -/
theorem IsSequential.read_of_proper {codec : Codec Value} (isSequential : codec.IsSequential)
    {value : Value} (restored : codec.Restores value) {front missing : List UInt8}
    (written : codec.write value = front ++ missing) (proper : missing ≠ []) :
    ∃ fault, codec.read front = .error fault ∧
      (fault = .noRoom → textLimit ≤ (codec.write value).length) := by
  have whole : codec.read (front ++ missing) = .ok (value, []) := by
    rw [← written, ← List.append_nil (codec.write value)]
    exact restored []
  cases read : codec.read front with
  | ok result =>
    obtain ⟨found, rest⟩ := result
    obtain ⟨taken, rfl, again⟩ := isSequential.takes read
    have more : codec.read (taken ++ (rest ++ missing)) = .ok (found, rest ++ missing) :=
      again (rest ++ missing)
    rw [← List.append_assoc, whole] at more
    have nothingLeft := (Prod.mk.inj (Except.ok.inj more)).2
    exact absurd (List.append_eq_nil_iff.mp nothingLeft.symm).2 proper
  | error fault =>
    refine ⟨fault, rfl, ?_⟩
    rintro rfl
    rw [written]
    exact isSequential.noRoom read whole

/-! ### Combining codecs -/

/-- A codec is sequential if it reads in sequential steps. -/
theorem isSequential_of_steps {codec : Codec Value} (steps : Reader Value)
    (same : ∀ bytes, codec.read bytes = steps.run bytes) (isSequential : steps.IsSequential) :
    codec.IsSequential := by
  have reader : codec.reader = steps := funext same
  rw [IsSequential, reader]
  exact isSequential

theorem isSequential_unit : unit.IsSequential :=
  Reader.isSequential_pure ()

theorem isSequential_pair {first : Codec Value} {second : Codec Other}
    (isFirst : first.IsSequential) (isSecond : second.IsSequential) :
    (first.pair second).IsSequential := by
  refine isSequential_of_steps
    (first.reader >>= fun left => second.reader >>= fun right => pure (left, right))
    (fun bytes => ?_) ?_
  · simp only [pair, Reader.run_bind, run_reader]
    cases first.read bytes with
    | error fault => rfl
    | ok result =>
      dsimp only
      cases second.read result.2 <;> rfl
  · exact Reader.isSequential_bind isFirst fun left =>
      Reader.isSequential_bind isSecond fun right => Reader.isSequential_pure (left, right)

theorem isSequential_convert {codec : Codec Value} (isSequential : codec.IsSequential)
    (pack : Value → Other) (unpack : Other → Value) : (codec.convert pack unpack).IsSequential := by
  refine isSequential_of_steps (codec.reader >>= fun value => pure (pack value))
    (fun bytes => ?_) ?_
  · simp only [convert, Reader.run_bind, run_reader]
    cases codec.read bytes <;> rfl
  · exact Reader.isSequential_bind isSequential fun value => Reader.isSequential_pure (pack value)

/-! ### Numbers -/

/-- Takes one byte. -/
def byte : Reader UInt8
  | [] => .error .malformed
  | first :: rest => .ok (first, rest)

theorem isSequential_byte : byte.IsSequential where
  takes {bytes rest first} read := by
    cases bytes with
    | nil => cases read
    | cons first rest =>
      obtain ⟨rfl, rfl⟩ := Prod.mk.inj (Except.ok.inj read)
      exact ⟨[first], rfl, fun _ => rfl⟩
  noRoom {bytes behind rest first} announced := by
    cases bytes <;> cases announced

theorem run_byte_bind (further : UInt8 → Reader Value) (first : UInt8) (rest : List UInt8) :
    (byte >>= further).run (first :: rest) = (further first).run rest := rfl

theorem isSequential_nat (width : Nat) : (nat width).IsSequential := by
  induction width with
  | zero => exact Reader.isSequential_pure 0
  | succ width inductionHypothesis =>
    refine isSequential_of_steps
      (byte >>= fun first => (nat width).reader >>= fun high => pure (first.toNat + 256 * high))
      (fun bytes => ?_) ?_
    · cases bytes with
      | nil => rfl
      | cons first rest =>
        rw [run_byte_bind, Reader.run_bind, run_reader]
        simp only [nat, readNat]
        cases readNat width rest <;> rfl
    · exact Reader.isSequential_bind isSequential_byte fun first =>
        Reader.isSequential_bind inductionHypothesis fun high => Reader.isSequential_pure _

theorem isSequential_count : count.IsSequential :=
  isSequential_nat 8

theorem isSequential_int : int.IsSequential :=
  isSequential_convert isSequential_count _ _

/-! ### Choices -/

theorem isSequential_tagged (tag : Value → Nat) {alternative : Nat → Option (Codec Value)}
    (areSequential : ∀ number, ∀ codec ∈ alternative number, codec.IsSequential) :
    (tagged tag alternative).IsSequential := by
  refine isSequential_of_steps
    ((nat 4).reader >>= fun number => (alternative number).elim (throw .malformed) reader)
    (fun bytes => ?_) ?_
  · simp only [tagged, Reader.run_bind, run_reader]
    cases (nat 4).read bytes with
    | error fault => rfl
    | ok result =>
      dsimp only
      cases alternative result.1 <;> rfl
  · refine Reader.isSequential_bind (isSequential_nat 4) fun number => ?_
    cases chosen : alternative number with
    | none => exact Reader.isSequential_malformed
    | some codec => exact areSequential number codec chosen

theorem isSequential_oneOf [DecidableEq Value] (values : List Value) :
    (oneOf values).IsSequential := by
  refine isSequential_of_steps
    ((nat 4).reader >>= fun number => values[number]?.elim (throw .malformed) pure)
    (fun bytes => ?_) ?_
  · simp only [oneOf, Reader.run_bind, run_reader]
    cases (nat 4).read bytes with
    | error fault => rfl
    | ok result =>
      dsimp only
      cases values[result.1]? <;> rfl
  · refine Reader.isSequential_bind (isSequential_nat 4) fun number => ?_
    cases values[number]? with
    | none => exact Reader.isSequential_malformed
    | some value => exact Reader.isSequential_pure value

theorem isSequential_option {codec : Codec Value} (isSequential : codec.IsSequential) :
    codec.option.IsSequential := by
  refine isSequential_of_steps
    (byte >>= fun mark =>
      if mark = 0 then pure none
      else if mark = 1 then codec.reader >>= fun value => pure (some value)
      else throw .malformed)
    (fun bytes => ?_) ?_
  · cases bytes with
    | nil => rfl
    | cons mark rest =>
      rw [run_byte_bind]
      by_cases isNone : mark = 0
      · rw [if_pos isNone, isNone]
        rfl
      · rw [if_neg isNone]
        by_cases isSome : mark = 1
        · rw [if_pos isSome, isSome, Reader.run_bind, run_reader]
          show (codec.read rest).map _ = _
          cases codec.read rest <;> rfl
        · rw [if_neg isSome]
          simp [option, isNone, isSome]
          rfl
  · refine Reader.isSequential_bind isSequential_byte fun mark => ?_
    split
    · exact Reader.isSequential_pure none
    · split
      · exact Reader.isSequential_bind isSequential fun value =>
          Reader.isSequential_pure (some value)
      · exact Reader.isSequential_malformed

/-! ### Sequences -/

theorem isSequential_readMore {codec : Codec Value} (isSequential : codec.IsSequential)
    (more : Nat) (values : Array Value) :
    Reader.IsSequential (readMore codec more values) := by
  induction more generalizing values with
  | zero => exact Reader.isSequential_pure values.toList
  | succ more inductionHypothesis =>
    have steps : readMore codec (more + 1) values =
        codec.reader >>= fun value => (readMore codec more (values.push value) : Reader _) := by
      funext bytes
      exact (Reader.run_bind codec.reader _ bytes).symm
    rw [steps]
    exact Reader.isSequential_bind isSequential fun value => inductionHypothesis _

theorem isSequential_list {codec : Codec Value} (isSequential : codec.IsSequential) :
    codec.list.IsSequential := by
  refine isSequential_of_steps
    (count.reader >>= fun length => (readMore codec length #[] : Reader _))
    (fun bytes => ?_) ?_
  · rw [Reader.run_bind, run_reader]
    simp only [list]
    cases count.read bytes <;> rfl
  · exact Reader.isSequential_bind isSequential_count fun length =>
      isSequential_readMore isSequential length #[]

/-- Takes the bytes of a text, so many. -/
def textOf (length : Nat) : Reader String := fun bytes =>
  let encoded := bytes.take length
  if encoded.length = length then
    match String.fromUTF8? ⟨encoded.toArray⟩ with
    | none => .error .malformed
    | some text => .ok (text, bytes.drop length)
  else .error (if length < textLimit then .malformed else .noRoom)

theorem run_textOf_append {length : Nat} {encoded : List UInt8} (enough : encoded.length = length)
    (behind : List UInt8) :
    (textOf length).run (encoded ++ behind) =
      match String.fromUTF8? ⟨encoded.toArray⟩ with
      | none => .error .malformed
      | some text => .ok (text, behind) := by
  show (if _ then _ else _) = _
  rw [List.take_left' enough, if_pos enough, List.drop_left' enough]

theorem run_textOf_of_short {length : Nat} {bytes : List UInt8} (short : bytes.length < length) :
    (textOf length).run bytes = .error (if length < textLimit then .malformed else .noRoom) :=
  if_neg (by rw [List.length_take]; omega)

theorem isSequential_textOf (length : Nat) : (textOf length).IsSequential where
  takes {bytes rest found} read := by
    rcases Nat.lt_or_ge bytes.length length with short | enough
    · rw [run_textOf_of_short short] at read
      cases read
    · have encoded := List.length_take_of_le enough
      have whole := List.take_append_drop length bytes
      rw [← whole, run_textOf_append encoded] at read
      split at read
      next => cases read
      next text decoded =>
        obtain ⟨rfl, rfl⟩ := Prod.mk.inj (Except.ok.inj read)
        refine ⟨bytes.take length, whole.symm, fun behind => ?_⟩
        rw [run_textOf_append encoded, decoded]
  noRoom {bytes behind rest found} announced read := by
    rcases Nat.lt_or_ge (bytes ++ behind).length length with short | enough
    · rw [run_textOf_of_short short] at read
      cases read
    · refine Nat.le_trans (Nat.le_of_not_lt fun small => ?_) enough
      -- where there is room, bytes that break off are malformed
      rcases Nat.lt_or_ge bytes.length length with short | enough
      · rw [run_textOf_of_short short, if_pos small] at announced
        cases announced
      · rw [← List.take_append_drop length bytes,
          run_textOf_append (List.length_take_of_le enough)] at announced
        split at announced <;> cases announced

theorem isSequential_text : text.IsSequential := by
  refine isSequential_of_steps (count.reader >>= textOf) (fun bytes => ?_) ?_
  · rw [Reader.run_bind, run_reader]
    simp only [text]
    cases count.read bytes <;> rfl
  · exact Reader.isSequential_bind isSequential_count isSequential_textOf

theorem isSequential_sortedMap [Ord Value] [Std.TransOrd Value] [Std.LawfulEqOrd Value]
    {key : Codec Value} {value : Codec Other} (isKey : key.IsSequential)
    (isValue : value.IsSequential) : (sortedMap key value).IsSequential :=
  isSequential_convert (isSequential_list (isSequential_pair isKey isValue)) _ _

theorem isSequential_sortedSet [Ord Value] [Std.TransOrd Value] [Std.LawfulEqOrd Value]
    {key : Codec Value} (isKey : key.IsSequential) : (sortedSet key).IsSequential :=
  isSequential_convert (isSequential_list isKey) _ _

end Codec

namespace Snapshot

open Codec

/-! ### Dictionaries -/

theorem isSequential_token (kind : TokenKind) : (token kind).IsSequential :=
  isSequential_convert (isSequential_pair isSequential_text (isSequential_oneOf _)) _ _

theorem isSequential_step : step.IsSequential := by
  refine isSequential_tagged Step.rank fun number codec chosen => ?_
  rcases number with _ | _ | _ | _ | number <;> cases chosen
  · exact isSequential_token .word
  · exact isSequential_token .synset
  · exact isSequential_token .slot
  · exact isSequential_convert isSequential_unit _ _

theorem isSequential_trie {Payload : Type} {payload : Codec Payload}
    (isSequential : payload.IsSequential) : (trie payload).IsSequential := by
  have node : (node payload).IsSequential :=
    isSequential_convert
      (isSequential_pair (isSequential_sortedMap isSequential_step isSequential_count)
        (isSequential_list isSequential)) _ _
  exact isSequential_convert (isSequential_pair (isSequential_list node) isSequential_count) _ _

theorem isSequential_verbEntry : verbEntry.IsSequential :=
  isSequential_convert
    (isSequential_pair isSequential_text (isSequential_pair isSequential_text isSequential_count))
    _ _

theorem isSequential_verbs : verbs.IsSequential :=
  isSequential_convert
    (isSequential_pair (isSequential_trie isSequential_verbEntry)
      (isSequential_pair (isSequential_trie isSequential_verbEntry)
        (isSequential_pair (isSequential_trie isSequential_text)
          (isSequential_sortedSet isSequential_text)))) _ _

theorem isSequential_datedCode : datedCode.IsSequential := by
  have oneDay := isSequential_pair isSequential_int isSequential_text
  refine isSequential_tagged _ fun number codec chosen => ?_
  rcases number with _ | _ | _ | _ | number <;> cases chosen
  · exact isSequential_convert isSequential_text _ _
  · exact isSequential_convert oneDay _ _
  · exact isSequential_convert oneDay _ _
  · exact isSequential_convert (isSequential_pair isSequential_int oneDay) _ _

theorem isSequential_cluster : cluster.IsSequential :=
  isSequential_convert
    (isSequential_pair (isSequential_list isSequential_datedCode)
      (isSequential_option isSequential_text)) _ _

theorem isSequential_actors : actors.IsSequential :=
  isSequential_convert
    (isSequential_pair (isSequential_trie isSequential_count)
      (isSequential_list isSequential_cluster)) _ _

theorem isSequential_agents : agents.IsSequential := by
  have agentCode : agentCode.IsSequential :=
    isSequential_convert (isSequential_pair isSequential_text (isSequential_oneOf _)) _ _
  exact isSequential_convert (isSequential_trie agentCode) _ _

theorem isSequential_versioned : versioned.IsSequential := by
  have lexicon : lexicon.IsSequential :=
    isSequential_convert
      (isSequential_pair isSequential_verbs
        (isSequential_pair isSequential_actors isSequential_agents)) _ _
  exact isSequential_pair (isSequential_nat 4) lexicon

/-! ### Beginnings of snapshots -/

theorem restores_versioned {dictionaries : Lexicon} (fits : dictionaries.Fits) :
    versioned.Restores (version, { dictionaries with diagnostics := #[] }) :=
  restores_pair (restores_nat (show version < Nat.pow 256 4 by decide)) (restores_lexicon fits)

/-- Of the bytes written for dictionaries every proper beginning is refused: no dictionaries at all
are read from it. It is a bad snapshot for whoever loads it as a file, unless the snapshot has more
bytes than any file can have. -/
theorem beginning_refused {dictionaries : Lexicon} (fits : dictionaries.Fits)
    {front : List UInt8} (isPrefix : front <+: write dictionaries)
    (proper : front ≠ write dictionaries) :
    (∃ fault, read front = .error (.unreadable fault)) ∧
      ((write dictionaries).length < textLimit →
        read front = .error (.unreadable .malformed) ∧
          ∀ {m : Type → Type} [Monad m] [LawfulMonad m] (files : FileAccess m) (name : String),
            files.fetch name = pure (.ok (.file ⟨front.toArray⟩)) →
              files.loadSnapshot name = pure (.error .badSnapshot)) := by
  obtain ⟨missing, whole⟩ := isPrefix
  have isMissing : missing ≠ [] := by
    rintro rfl
    exact proper (by rw [← whole, List.append_nil])
  obtain ⟨fault, refused, large⟩ :=
    isSequential_versioned.read_of_proper (restores_versioned fits) whole.symm isMissing
  have unreadable : read front = .error (.unreadable fault) := by
    rw [read, refused]
  refine ⟨⟨fault, unreadable⟩, fun small => ?_⟩
  obtain rfl : fault = .malformed := by
    cases fault with
    | malformed => rfl
    | noRoom => exact absurd small (Nat.not_lt_of_le (large rfl))
  refine ⟨unreadable, fun files name fetched => ?_⟩
  rw [FileAccess.loadSnapshot, fetched, pure_bind]
  show pure ((read front.toArray.toList).mapError _) = _
  rw [List.toList_toArray, unreadable]
  rfl

/-- A snapshot without its last byte, in a table of files. -/
theorem grantLexicon_without_last_byte :
    grantLexicon.Fits ∧ (write grantLexicon).dropLast <+: write grantLexicon ∧
      (write grantLexicon).dropLast ≠ write grantLexicon ∧
      (write grantLexicon).length < textLimit ∧
      read (write grantLexicon).dropLast = .error (.unreadable .malformed) := by
  have isPrefix := List.dropLast_prefix (write grantLexicon)
  have proper : (write grantLexicon).dropLast ≠ write grantLexicon := by decide +kernel
  have small : (write grantLexicon).length < textLimit := by decide +kernel
  have fits : grantLexicon.Fits := by decide
  exact ⟨fits, isPrefix, proper, small, ((beginning_refused fits isPrefix proper).2 small).1⟩

end Snapshot

end Codebook
