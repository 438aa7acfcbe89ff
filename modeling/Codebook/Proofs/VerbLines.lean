/-
This file says what the lines of a verb file do. A line adds entries to the three tries of the
dictionary, defines at most one synset and moves the block on (`VerbState.fst_handle`). A pattern is
stored under its path, and a verb that becomes the primary of its block is stored by itself. So all
three tries are built by insertions, in the order of the lines (`VerbDictionary.forms_compile`,
`VerbDictionary.patterns_compile`, `VerbDictionary.synsets_compile`).
-/

import Codebook.Proofs.TrieStorage
import Codebook.Verbs.Compile
import Mathlib.Data.List.ReduceOption

namespace Codebook

open Text

namespace VerbState

/-! ### What a line stores -/

/-- The pattern a line stores. -/
def pattern? (state : VerbState) (line : Line) : Option Pattern :=
  match state.item line with
  | .pattern text code? => (state.readPattern text code? line.number).toOption
  | _ => none

/-- What is stored for the verb of a line if it becomes the primary of its block. -/
def primary? (state : VerbState) (line : Line) : Option VerbEntry :=
  match state.item line with
  | .verb text code? =>
    if state.awaitingPrimary ∨ state.anchor = none then
      (readVerbLine text).toOption.map fun verbLine =>
        ⟨String.ofList verbLine.verb, code?.getD state.blockCode, line.number⟩
    else none
  | _ => none

/-- What a line adds to the patterns. -/
def added (state : VerbState) (line : Line) : List (Path × VerbEntry) :=
  ((state.pattern? line).map fun pattern => (pattern.path, pattern.entry)).toList ++
    ((state.primary? line).map fun entry =>
      (VerbDictionary.formPath entry.anchor, entry)).toList

/-- The code a line gives to the block it opens, if it opens one. -/
def openedBlock? (state : VerbState) (line : Line) : Option (Option String) :=
  match state.item line with
  | .header code? => some code?
  | _ => none

/-- The synset a line opens, and thereby defines. -/
def openedSynset? (state : VerbState) (line : Line) : Option OpenSynset :=
  match state.item line with
  | .synset header => (state.openSynset header).toOption.bind (·.synset)
  | _ => none

/-- The synset that is open after a line. -/
def synsetAfter (state : VerbState) (line : Line) : Option OpenSynset :=
  match state.item line with
  | .member _ _ => state.synset
  | _ => state.openedSynset? line

/-- The primary of the latest block that has one, after a line. -/
def anchorAfter (state : VerbState) (line : Line) : Option String :=
  ((state.primary? line).map (·.anchor)).or state.anchor

/-- The spellings under which a member of a synset is stored. -/
def memberSpellings (synset : OpenSynset) (text : List Char) : List (List Char) :=
  let member := trim text
  let words := upperChars (trim (blankUnderscores member))
  if words.isEmpty then []
  else if synset.plurals ∧ member.getLast? ≠ some '_' then [words, Inflection.synsetPlural words]
  else [words]

/-- What a line adds to the members of the synsets. -/
def membersAdded (state : VerbState) (line : Line) : List (Path × String) :=
  match state.item line with
  | .member synset text =>
    (memberSpellings synset text).map fun spelling =>
      ((Phrase.ofChars spelling).rooted, synset.name)
  | _ => []

/-- The verb of a line, if the line is a verb line that can be taken apart. -/
def verbLine? (state : VerbState) (line : Line) : Option VerbLine :=
  match state.item line with
  | .verb text _ => (readVerbLine text).toOption
  | _ => none

/-- The paths of the surface forms that are stored for a verb. -/
def formPaths (verbLine : VerbLine) : List Path :=
  if verbLine.verb.contains '_' then
    match multiWordSurfaces verbLine with
    | .error _ => []
    | .ok surfaces => surfaces.filterMap multiWordPath?
  else (surfaces verbLine).map fun surface => VerbDictionary.formPath (String.ofList surface)

/-- Why a verb is refused although it can be read: it is a multi-word verb, and the mark of its root
is missing. -/
def refusal? (verbLine : VerbLine) : Option Skip :=
  if verbLine.verb.contains '_' then
    match multiWordSurfaces verbLine with
    | .error skip => some skip
    | .ok surfaces =>
      let unmarked := surfaces.filter fun surface => (multiWordPath? surface).isNone
      if unmarked.isEmpty then none
      else some (.unmarkedForms (String.ofList verbLine.verb) (unmarked.map String.ofList))
  else none

/-- What a line adds to the surface forms. -/
def formsAdded (state : VerbState) (line : Line) : List (Path × VerbEntry) :=
  match state.item line with
  | .verb text code? =>
    match readVerbLine text with
    | .error _ => []
    | .ok verbLine =>
      (formPaths verbLine).map (·, ⟨(state.anchorAfter line).getD (String.ofList verbLine.verb),
        code?.getD state.blockCode, line.number⟩)
  | _ => []

/-- A verb becomes the primary of its block exactly if it can be read and the block lacks one. -/
theorem isSome_primary?_iff {state : VerbState} {line : Line} :
    (state.primary? line).isSome ↔
      (state.awaitingPrimary ∨ state.anchor = none) ∧ (state.verbLine? line).isSome := by
  unfold primary? verbLine?
  cases state.item line with
  | verb text code? =>
    dsimp only
    split <;> simp_all
  | _ => simp

/-- A pattern that can be read belongs to the anchor, refers to defined synsets only and is numbered
like its line. -/
theorem readPattern_eq_ok {state : VerbState} {text : List Char} {code? : Option String}
    {number : Nat} {pattern : Pattern}
    (read : state.readPattern text code? number = .ok pattern) :
    state.anchor = some pattern.anchor ∧
      undefinedSynset? state.dictionary (pattern.before.tokens ++ pattern.after.tokens) = none ∧
      pattern.line = number := by
  unfold readPattern at read
  dsimp only at read
  repeat' split at read
  all_goals cases read
  refine ⟨?_, ?_, rfl⟩ <;> assumption

/-- A stored pattern belongs to the anchor, refers to defined synsets only and is numbered like its
line. -/
theorem pattern?_eq_some {state : VerbState} {line : Line} {pattern : Pattern}
    (stored : state.pattern? line = some pattern) :
    state.anchor = some pattern.anchor ∧
      undefinedSynset? state.dictionary (pattern.before.tokens ++ pattern.after.tokens) = none ∧
      pattern.line = line.number := by
  unfold pattern? at stored
  split at stored
  next text code? item =>
    cases read : state.readPattern text code? line.number with
    | error skip => simp [read, Except.toOption] at stored
    | ok other =>
      rw [read] at stored
      obtain rfl := Option.some.inj stored
      exact readPattern_eq_ok read
  next => cases stored

/-- A line that stores a pattern holds no primary. -/
theorem primary?_of_pattern? {state : VerbState} {line : Line} {pattern : Pattern}
    (stored : state.pattern? line = some pattern) : state.primary? line = none := by
  unfold pattern? at stored
  split at stored
  next text code? item => rw [primary?, item]
  next => cases stored

/-- A primary is numbered like its line. -/
theorem line_of_primary? {state : VerbState} {line : Line} {entry : VerbEntry}
    (primary : state.primary? line = some entry) : entry.line = line.number := by
  unfold primary? at primary
  split at primary
  next =>
    obtain ⟨-, named⟩ := Option.ite_none_right_eq_some.mp primary
    obtain ⟨verbLine, -, rfl⟩ := Option.map_eq_some_iff.mp named
    rfl
  next => cases primary

/-! ### Verb lines -/

/-- How a verb line is written: a verb, which an annotation may follow, and perhaps forms in braces.
What stands behind the braces does not count. -/
inductive WritesVerb : List Char → VerbLine → Prop
  | plain {body verb : List Char} {note : List (List Char)} (noForms : '\x7b' ∉ body)
      (named : words body = verb :: note) : WritesVerb body ⟨upperChars verb, none⟩
  | listing {base forms verb : List Char} {note : List (List Char)} (noForms : '\x7b' ∉ base)
      (closed : '\x7d' ∉ forms) (named : words base = verb :: note) (rest : List Char) :
      WritesVerb (base ++ '\x7b' :: (forms ++ '\x7d' :: rest))
        ⟨upperChars verb, some ((words forms).map upperChars)⟩

/-- A verb line that cannot be read lacks its verb, or the end of its forms. -/
theorem readVerbLine_cases (body : List Char) :
    (∃ verbLine, readVerbLine body = .ok verbLine ∧ WritesVerb body verbLine) ∨
      readVerbLine body = .error .unclosedForms ∨ readVerbLine body = .error .lineWithoutVerb := by
  unfold readVerbLine
  cases opened : splitAt? (· == '\x7b') body with
  | none =>
    simp only [pure_bind]
    cases named : words body with
    | nil => exact .inr (.inr rfl)
    | cons verb note => exact .inl ⟨_, rfl, .plain (splitAt?_beq_eq_none_iff.mp opened) named⟩
  | some parts =>
    obtain ⟨base, behind⟩ := parts
    obtain ⟨rfl, noForms⟩ := splitAt?_beq_eq_some_iff.mp opened
    dsimp only
    cases ended : splitAt? (· == '\x7d') behind with
    | none => exact .inr (.inl rfl)
    | some parts =>
      obtain ⟨forms, rest⟩ := parts
      obtain ⟨rfl, closed⟩ := splitAt?_beq_eq_some_iff.mp ended
      simp only [pure_bind]
      cases named : words base with
      | nil => exact .inr (.inr rfl)
      | cons verb note => exact .inl ⟨_, rfl, .listing noForms closed named rest⟩

/-- A verb line can be read exactly if it is written as one: it has a verb, and if braces are
opened, they are closed. -/
theorem readVerbLine_eq_ok_iff {body : List Char} {verbLine : VerbLine} :
    readVerbLine body = .ok verbLine ↔ WritesVerb body verbLine := by
  constructor
  · intro read
    rcases readVerbLine_cases body with ⟨other, same, writes⟩ | unclosed | unnamed
    · obtain rfl := Except.ok.inj (same.symm.trans read)
      exact writes
    · rw [unclosed] at read
      cases read
    · rw [unnamed] at read
      cases read
  · intro writes
    unfold readVerbLine
    cases writes with
    | plain noForms named =>
      rw [splitAt?_beq_eq_none_iff.mpr noForms]
      simp only [pure_bind, named]
      rfl
    | listing noForms closed named rest =>
      rw [splitAt?_beq_eq_some_iff.mpr ⟨rfl, noForms⟩]
      dsimp only
      rw [splitAt?_beq_eq_some_iff.mpr ⟨rfl, closed⟩]
      simp only [pure_bind, named]
      rfl

theorem head?_ne_mark {word : List Char} (unmarked : ∀ root, word = '+' :: root → False) :
    word.head? ≠ some '+' := by
  intro marked
  obtain ⟨root, shape⟩ := List.head?_eq_some_iff.mp marked
  exact unmarked root shape

/-- The words are split at the first marked one. -/
theorem splitAtMark?_eq_some_iff {words before after : List (List Char)} {root : List Char} :
    splitAtMark? words = some (before, root, after) ↔
      words = before ++ ('+' :: root) :: after ∧ ∀ word ∈ before, word.head? ≠ some '+' := by
  fun_induction splitAtMark? words generalizing before with
  | case1 => simp
  | case2 first rest =>
    cases before with
    | nil => simp
    | cons word others =>
      constructor
      · intro found
        cases found
      · rintro ⟨shape, unmarked⟩
        obtain ⟨rfl, -⟩ := List.cons.inj shape
        exact absurd rfl (unmarked _ List.mem_cons_self)
  | case3 word rest unmarked inductionHypothesis =>
    have goesOn := head?_ne_mark unmarked
    cases before with
    | nil =>
      constructor
      · intro found
        obtain ⟨_, _, same⟩ := Option.map_eq_some_iff.mp found
        cases same
      · rintro ⟨shape, -⟩
        exact absurd (List.cons.inj shape).1 (unmarked root)
    | cons first others =>
      rw [List.cons_append, List.cons.injEq, List.forall_mem_cons, and_assoc]
      constructor
      · intro found
        obtain ⟨⟨front, middle, back⟩, later, same⟩ := Option.map_eq_some_iff.mp found
        obtain ⟨⟨rfl, rfl⟩, rfl, rfl⟩ :
            (word = first ∧ front = others) ∧ middle = root ∧ back = after := by
          simpa using same
        obtain ⟨rfl, othersUnmarked⟩ := inductionHypothesis.mp later
        exact ⟨rfl, rfl, goesOn, othersUnmarked⟩
      · rintro ⟨rfl, rfl, -, othersUnmarked⟩
        rw [inductionHypothesis.mpr ⟨rfl, othersUnmarked⟩]
        rfl

theorem isSome_splitAtMark?_iff {words : List (List Char)} :
    (splitAtMark? words).isSome ↔ ∃ word ∈ words, word.head? = some '+' := by
  fun_induction splitAtMark? words with
  | case1 => simp
  | case2 first rest => simp
  | case3 word rest unmarked inductionHypothesis =>
    rw [Option.isSome_map, inductionHypothesis]
    simp [head?_ne_mark unmarked]

theorem verbLine?_eq_some_iff {state : VerbState} {line : Line} {verbLine : VerbLine} :
    state.verbLine? line = some verbLine ↔
      ∃ text code?, state.item line = .verb text code? ∧ WritesVerb text verbLine := by
  unfold verbLine?
  cases state.item line with
  | verb text code? =>
    cases read : readVerbLine text with
    | error skip => simp [← readVerbLine_eq_ok_iff, read, Except.toOption]
    | ok other => simp [← readVerbLine_eq_ok_iff, read, Except.toOption]
  | _ => simp

/-- A line adds forms exactly if it is a verb line that can be read. -/
theorem mem_formsAdded_iff {state : VerbState} {line : Line} {path : Path} {form : VerbEntry} :
    (path, form) ∈ state.formsAdded line ↔
      ∃ text code? verbLine, state.item line = .verb text code? ∧ WritesVerb text verbLine ∧
        path ∈ formPaths verbLine ∧
        form = ⟨(state.anchorAfter line).getD (String.ofList verbLine.verb),
          code?.getD state.blockCode, line.number⟩ := by
  unfold formsAdded
  cases state.item line with
  | verb text code? =>
    cases read : readVerbLine text with
    | error skip => simp [← readVerbLine_eq_ok_iff, read]
    | ok verbLine => simp [← readVerbLine_eq_ok_iff, read, eq_comm]
  | _ => simp

/-! ### The step -/

theorem addMember_fst (state : VerbState) (synset : OpenSynset) (text : List Char) :
    (orSkip state (state.addMember synset text)).1 =
      { state with dictionary := { state.dictionary with
          synsets := state.dictionary.synsets.insertAll ((memberSpellings synset text).map
            fun spelling => ((Phrase.ofChars spelling).rooted, synset.name)) } } := by
  unfold addMember memberSpellings
  dsimp only
  split <;> rfl

/-- What a verb line does once it can be read: the verb may become the primary of its block, its
forms are stored, and only then may it be refused. -/
theorem addVerb_of_read (state : VerbState) {body : List Char} {verbLine : VerbLine}
    (read : readVerbLine body = .ok verbLine) (code? : Option String) (number : Nat) :
    state.addVerb body code? number =
      let verb := String.ofList verbLine.verb
      let code := code?.getD state.blockCode
      let primary := state.takePrimary ⟨verb, code, number⟩
      (primary.addForms (formPaths verbLine) ⟨primary.anchor.getD verb, code, number⟩,
        refusal? verbLine) := by
  unfold addVerb formPaths refusal?
  rw [read]
  dsimp only
  split
  next =>
    unfold addMultiWord
    cases multiWordSurfaces verbLine <;> rfl
  next => rfl

/-- A line adds to the three tries what it is said to add, defines the synset it opens, and moves
the block: a header opens one, and a primary settles one. -/
theorem fst_handle (state : VerbState) (line : Line) :
    (state.handle line).1 =
      { dictionary :=
          { forms := state.dictionary.forms.insertAll (state.formsAdded line)
            patterns := state.dictionary.patterns.insertAll (state.added line)
            synsets := state.dictionary.synsets.insertAll (state.membersAdded line)
            synsetNames := (state.openedSynset? line).elim state.dictionary.synsetNames
              fun synset => state.dictionary.synsetNames.insert synset.name () }
        blockCode := (state.openedBlock? line).elim state.blockCode (·.getD nullCode)
        awaitingPrimary := (state.openedBlock? line).isSome ||
          state.awaitingPrimary && (state.primary? line).isNone
        anchor := state.anchorAfter line
        synset := state.synsetAfter line } := by
  unfold handle formsAdded added membersAdded synsetAfter openedSynset? openedBlock? anchorAfter
    pattern? primary?
  cases state.item line with
  | member synset text =>
    rw [addMember_fst]
    simp
  | header code? => simp [closeSynset, openBlock]
  | synset header =>
    unfold openSynset
    dsimp only
    split <;> simp [orSkip, closeSynset, Except.toOption]
  | pattern text code? =>
    -- a pattern is read alike whether a synset is open or not
    have sameReading : state.closeSynset.readPattern text code? line.number =
        state.readPattern text code? line.number := rfl
    dsimp only
    rw [addPattern, sameReading]
    cases state.readPattern text code? line.number with
    | error skip => simp [Except.map, Except.toOption, orSkip, closeSynset]
    | ok pattern =>
      simp [Except.map, Except.toOption, orSkip, closeSynset, storePattern, Trie.insertAll]
  | verb text code? =>
    dsimp only
    cases read : readVerbLine text with
    | error skip => simp [addVerb, read, closeSynset, Except.toOption]
    | ok verbLine =>
      rw [addVerb_of_read _ read]
      by_cases lacksPrimary : state.awaitingPrimary ∨ state.anchor = none
      · simp [takePrimary, addForms, closeSynset, lacksPrimary, Except.toOption, Trie.insertAll]
      · simp [takePrimary, addForms, closeSynset, lacksPrimary]

/-! ### Runs -/

/-- The state after some lines. -/
def run (state : VerbState) (lines : List Line) : VerbState :=
  lines.foldl (fun state line => (state.handle line).1) state

@[simp] theorem run_nil (state : VerbState) : state.run [] = state := rfl

@[simp] theorem run_cons (state : VerbState) (line : Line) (rest : List Line) :
    state.run (line :: rest) = (state.handle line).1.run rest := rfl

@[simp] theorem run_append (state : VerbState) (front back : List Line) :
    state.run (front ++ back) = (state.run front).run back :=
  List.foldl_append

/-- What `view` sees of each of some lines in the state that handles it. -/
def trace {Seen : Type} (view : VerbState → Line → Seen) (state : VerbState) : List Line → List Seen
  | [] => []
  | line :: rest => view state line :: (state.handle line).1.trace view rest

section Trace

variable {Seen : Type} {view : VerbState → Line → Seen}

@[simp] theorem trace_nil (state : VerbState) : state.trace view [] = [] := rfl

@[simp] theorem trace_cons (state : VerbState) (line : Line) (rest : List Line) :
    state.trace view (line :: rest) = view state line :: (state.handle line).1.trace view rest :=
  rfl

theorem trace_append (state : VerbState) (front back : List Line) :
    state.trace view (front ++ back) =
      state.trace view front ++ (state.run front).trace view back := by
  induction front generalizing state with
  | nil => rfl
  | cons line rest inductionHypothesis =>
    rw [List.cons_append, trace_cons, inductionHypothesis, trace_cons, List.cons_append, run_cons]

/-- What is seen on some lines is seen on one of them, in the state the lines above it lead to. -/
theorem mem_trace {state : VerbState} {lines : List Line} {seen : Seen} :
    seen ∈ state.trace view lines ↔
      ∃ above line below, lines = above ++ line :: below ∧ view (state.run above) line = seen := by
  constructor
  · intro member
    induction lines generalizing state with
    | nil => cases member
    | cons first rest inductionHypothesis =>
      rcases List.mem_cons.mp member with here | later
      · exact ⟨[], first, rest, rfl, here.symm⟩
      · obtain ⟨above, line, below, rfl, same⟩ := inductionHypothesis later
        exact ⟨first :: above, line, below, rfl, same⟩
  · rintro ⟨above, line, below, rfl, rfl⟩
    rw [trace_append, trace_cons]
    simp

/-- What is seen first of all, second and so on is seen on some lines and then on one more line. -/
theorem trace_eq_append_cons {state : VerbState} {lines : List Line} {front back : List Seen}
    {seen : Seen} (shape : state.trace view lines = front ++ seen :: back) :
    ∃ above line below, lines = above ++ line :: below ∧ state.trace view above = front ∧
      view (state.run above) line = seen := by
  induction front generalizing state lines with
  | nil =>
    cases lines with
    | nil => cases shape
    | cons line rest => exact ⟨[], line, rest, rfl, rfl, (List.cons.inj shape).1⟩
  | cons first others inductionHypothesis =>
    cases lines with
    | nil => cases shape
    | cons line rest =>
      obtain ⟨rfl, behind⟩ := List.cons.inj shape
      obtain ⟨above, other, below, rfl, before, same⟩ := inductionHypothesis behind
      exact ⟨line :: above, other, below, rfl, by rw [trace_cons, before], same⟩

end Trace

/-- A trie to which every line adds something holds, after some lines, what they added. -/
theorem trie_run {Payload : Type} (trie : VerbState → Trie Payload)
    (adds : VerbState → Line → List (Path × Payload))
    (step : ∀ state line, trie (state.handle line).1 = (trie state).insertAll (adds state line))
    (state : VerbState) (lines : List Line) :
    trie (state.run lines) = (trie state).insertAll (state.trace adds lines).flatten := by
  induction lines generalizing state with
  | nil => rfl
  | cons line rest inductionHypothesis =>
    rw [run_cons, inductionHypothesis, step, trace_cons, List.flatten_cons, Trie.insertAll_append]

/-- What a trie finds first on a path was added there by some line, and no line above it adds
anything there. -/
theorem exists_first_of_find {Payload : Type} {adds : VerbState → Line → List (Path × Payload)}
    {state : VerbState} {lines : List Line} {path : Path} {payload : Payload}
    (found : (((Trie.empty : Trie Payload).insertAll (state.trace adds lines).flatten).find
      path).head? = some payload) :
    ∃ above line below, lines = above ++ line :: below ∧
      (path, payload) ∈ adds (state.run above) line ∧
      ∀ earlier other later, above = earlier ++ other :: later →
        ∀ phrase ∈ adds (state.run earlier) other, phrase.1 ≠ path := by
  rw [Trie.find_insertAll, List.head?_map, List.head?_filter, Option.map_eq_some_iff] at found
  obtain ⟨⟨storedPath, _⟩, isFirst, rfl⟩ := found
  obtain ⟨isHere, front, before, behind, back, shape, none, -⟩ :=
    List.find?_flatten_eq_some_iff.mp isFirst
  obtain rfl : storedPath = path := by simpa using isHere
  obtain ⟨above, line, below, rfl, rfl, own⟩ := trace_eq_append_cons shape
  refine ⟨above, line, below, rfl, by simp [own], ?_⟩
  rintro earlier other later rfl phrase added
  have seen : adds (state.run earlier) other ∈ state.trace adds (earlier ++ other :: later) :=
    mem_trace.mpr ⟨earlier, other, later, rfl, rfl⟩
  simpa using none _ seen phrase added

/-! ### What a file stores -/

/-- The patterns some lines store, in order. -/
def storedPatterns (state : VerbState) : List Line → List Pattern
  | [] => []
  | line :: rest => (state.pattern? line).toList ++ (state.handle line).1.storedPatterns rest

/-- What some lines add to the patterns, in order. -/
def addedBy (state : VerbState) : List Line → List (Path × VerbEntry)
  | [] => []
  | line :: rest => state.added line ++ (state.handle line).1.addedBy rest

theorem storedPatterns_eq_trace (state : VerbState) (lines : List Line) :
    state.storedPatterns lines = (state.trace pattern? lines).reduceOption := by
  induction lines generalizing state with
  | nil => rfl
  | cons line rest inductionHypothesis =>
    rw [storedPatterns, inductionHypothesis, trace_cons]
    cases state.pattern? line <;> rfl

theorem addedBy_eq_trace (state : VerbState) (lines : List Line) :
    state.addedBy lines = (state.trace added lines).flatten := by
  induction lines generalizing state with
  | nil => rfl
  | cons line rest inductionHypothesis =>
    rw [addedBy, inductionHypothesis, trace_cons, List.flatten_cons]

theorem addedBy_append (state : VerbState) (front back : List Line) :
    state.addedBy (front ++ back) = state.addedBy front ++ (state.run front).addedBy back := by
  simp only [addedBy_eq_trace, trace_append, List.flatten_append]

theorem mem_added_iff {state : VerbState} {line : Line} {path : Path} {entry : VerbEntry} :
    (path, entry) ∈ state.added line ↔
      (∃ pattern, state.pattern? line = some pattern ∧ pattern.path = path ∧
          pattern.entry = entry) ∨
        state.primary? line = some entry ∧ VerbDictionary.formPath entry.anchor = path := by
  simp only [added, List.mem_append, Option.mem_toList, Option.map_eq_some_iff, Prod.mk.injEq]
  refine or_congr_right ⟨?_, fun ⟨primary, same⟩ => ⟨entry, primary, same, rfl⟩⟩
  rintro ⟨_, primary, same, rfl⟩
  exact ⟨primary, same⟩

/-- What is added are the patterns and the primaries. -/
theorem mem_addedBy {state : VerbState} {lines : List Line} {path : Path} {entry : VerbEntry} :
    (path, entry) ∈ state.addedBy lines →
      (∃ pattern ∈ state.storedPatterns lines, pattern.path = path ∧ pattern.entry = entry) ∨
        path = VerbDictionary.formPath entry.anchor := by
  rw [addedBy_eq_trace, storedPatterns_eq_trace]
  intro member
  obtain ⟨_, seen, isAdded⟩ := List.mem_flatten.mp member
  obtain ⟨above, line, below, here, rfl⟩ := mem_trace.mp seen
  rcases mem_added_iff.mp isAdded with ⟨pattern, stored, rfl, rfl⟩ | ⟨-, rfl⟩
  · refine .inl ⟨pattern, List.reduceOption_mem_iff.mpr ?_, rfl, rfl⟩
    exact mem_trace.mpr ⟨above, line, below, here, stored⟩
  · exact .inr rfl

theorem mem_addedBy_of_stored {state : VerbState} {lines : List Line} {pattern : Pattern}
    (stored : pattern ∈ state.storedPatterns lines) :
    (pattern.path, pattern.entry) ∈ state.addedBy lines := by
  rw [storedPatterns_eq_trace, List.reduceOption_mem_iff] at stored
  obtain ⟨above, line, below, here, stored⟩ := mem_trace.mp stored
  rw [addedBy_eq_trace]
  refine List.mem_flatten.mpr ⟨_, mem_trace.mpr ⟨above, line, below, here, rfl⟩, ?_⟩
  exact mem_added_iff.mpr (.inl ⟨pattern, stored, rfl, rfl⟩)

end VerbState

namespace VerbDictionary

/-- The patterns of a file, in order. -/
def patternsOf (script : Script) : List Pattern :=
  VerbState.start.storedPatterns script.lines

theorem dictionary_compile (file : String) (script : Script) :
    (compile file script).dictionary = (VerbState.start.run script.lines).dictionary :=
  congrArg VerbState.dictionary (handleLines_fst VerbState.handle file .start script.lines)

/-- The surface forms of a dictionary are what its lines add to an empty trie. -/
theorem forms_compile (file : String) (script : Script) :
    (compile file script).dictionary.forms =
      Trie.empty.insertAll (VerbState.start.trace VerbState.formsAdded script.lines).flatten := by
  rw [dictionary_compile]
  exact VerbState.trie_run (·.dictionary.forms) _ (fun _ _ => by rw [VerbState.fst_handle]) _ _

/-- The patterns of a dictionary are what its lines add to an empty trie. -/
theorem patterns_compile (file : String) (script : Script) :
    (compile file script).dictionary.patterns =
      Trie.empty.insertAll (VerbState.start.addedBy script.lines) := by
  rw [dictionary_compile, VerbState.addedBy_eq_trace]
  exact VerbState.trie_run (·.dictionary.patterns) _ (fun _ _ => by rw [VerbState.fst_handle]) _ _

/-- What a path finds among the patterns is what the lines add there. -/
theorem mem_find_patterns_iff {file : String} {script : Script} {path : Path} {entry : VerbEntry} :
    entry ∈ (compile file script).dictionary.patterns.find path ↔
      (path, entry) ∈ VerbState.start.addedBy script.lines := by
  rw [patterns_compile, Trie.mem_find_insertAll]

/-- A stored pattern is found along its path. -/
theorem mem_find_path (file : String) {script : Script} {pattern : Pattern}
    (stored : pattern ∈ patternsOf script) :
    pattern.entry ∈ (compile file script).dictionary.patterns.find pattern.path :=
  mem_find_patterns_iff.mpr (VerbState.mem_addedBy_of_stored stored)

/-- The members of the synsets of a dictionary are what its lines add to an empty trie. -/
theorem synsets_compile (file : String) (script : Script) :
    (compile file script).dictionary.synsets =
      Trie.empty.insertAll (VerbState.start.trace VerbState.membersAdded script.lines).flatten := by
  rw [dictionary_compile]
  exact VerbState.trie_run (·.dictionary.synsets) _ (fun _ _ => by rw [VerbState.fst_handle]) _ _

/-- The patterns of a file are those its lines store. -/
theorem mem_patternsOf_iff {script : Script} {pattern : Pattern} :
    pattern ∈ patternsOf script ↔
      ∃ above line below, script.lines = above ++ line :: below ∧
        (VerbState.start.run above).pattern? line = some pattern := by
  rw [patternsOf, VerbState.storedPatterns_eq_trace, List.reduceOption_mem_iff,
    VerbState.mem_trace]

end VerbDictionary

/-- Whether a pattern is the first one that a file stores along its path. -/
def Pattern.IsFirst (script : Script) (pattern : Pattern) : Prop :=
  ∃ above line below, script.lines = above ++ line :: below ∧
    (VerbState.start.run above).pattern? line = some pattern ∧
    ∀ other ∈ VerbState.start.storedPatterns above, other.path ≠ pattern.path

theorem Pattern.IsFirst.mem {script : Script} {pattern : Pattern} (first : pattern.IsFirst script) :
    pattern ∈ VerbDictionary.patternsOf script := by
  obtain ⟨above, line, below, here, stored, -⟩ := first
  exact VerbDictionary.mem_patternsOf_iff.mpr ⟨above, line, below, here, stored⟩

/-- What is found first on a path longer than that of a bare anchor is the first pattern there. -/
theorem VerbDictionary.exists_isFirst_of_find {file : String} {script : Script} {path : Path}
    {entry : VerbEntry}
    (found : ((compile file script).dictionary.patterns.find path).head? = some entry)
    (long : path.length ≠ 2) :
    ∃ pattern : Pattern, pattern.IsFirst script ∧ pattern.path = path ∧ pattern.entry = entry := by
  rw [patterns_compile, VerbState.addedBy_eq_trace] at found
  obtain ⟨above, line, below, here, isAdded, none⟩ := VerbState.exists_first_of_find found
  rcases VerbState.mem_added_iff.mp isAdded with ⟨pattern, stored, rfl, rfl⟩ | ⟨-, rfl⟩
  · refine ⟨pattern, ⟨above, line, below, here, stored, fun other isStored onPath => ?_⟩, rfl, rfl⟩
    rw [VerbState.storedPatterns_eq_trace, List.reduceOption_mem_iff] at isStored
    obtain ⟨earlier, before, later, split, seen⟩ := VerbState.mem_trace.mp isStored
    exact none earlier before later split (other.path, other.entry)
      (VerbState.mem_added_iff.mpr (.inl ⟨other, seen, rfl, rfl⟩)) onPath
  · exact absurd rfl long

end Codebook
