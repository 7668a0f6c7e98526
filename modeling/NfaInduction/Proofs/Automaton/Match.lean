import NfaInduction.Automaton.Match
import NfaInduction.Proofs.Automaton.Language
import NfaInduction.Proofs.Automaton.Reports
import NfaInduction.Proofs.Except

/-! Matching tells whether the plain automaton accepts a word, for every word over the alphabet. -/

namespace NfaInduction

namespace StateSet

/-- Sets of one capacity have one number of words. -/
theorem size_eq_of_capacity_eq {left right : StateSet} (room : left.capacity = right.capacity) :
    left.words.size = right.words.size := by
  -- A capacity is a number of whole words.
  rw [capacity, capacity, Word.width] at room
  omega

/-- A set keeps its room while sets as large are added to it, and gains exactly their members. -/
theorem contains_foldl_union {row : Nat → StateSet} {start : StateSet} (states : List Nat)
    (size : ∀ state, (row state).words.size = start.words.size) :
    (states.foldl (fun next state => next.union (row state)) start).words.size = start.words.size ∧
      ∀ other, (states.foldl (fun next state => next.union (row state)) start).contains other ↔
        start.contains other ∨ ∃ state ∈ states, (row state).contains other := by
  -- Each union keeps the accumulator's size, which is what the next one needs to be exact.
  induction states generalizing start with
  | nil => simp
  | cons state rest hypothesis =>
    have room : (start.union (row state)).words.size = start.words.size := by
      simp [union, size]
    obtain ⟨width, members⟩ := hypothesis fun other => (size other).trans room.symm
    refine ⟨width.trans room, fun other => ?_⟩
    rw [List.foldl_cons, members, contains_union (size state).symm, Bool.or_eq_true,
      List.exists_mem_cons_iff, or_assoc]

end StateSet

namespace PlainAutomaton

open scoped Classical in
/-- Number of the words that a plain automaton accepts. -/
noncomputable def acceptedCount (plain : PlainAutomaton) (words : List (List Symbol)) : Nat :=
  words.countP fun word => decide (plain.Accepts word)

end PlainAutomaton

namespace Automaton

variable {automaton : Automaton} {plain : PlainAutomaton}

/-- A symbol leads to the states in the rows of the current ones, with the room of all states. -/
theorem contains_reached (shaped : automaton.Shaped) (current : StateSet) (symbol : Nat) :
    (automaton.reached current symbol).capacity = automaton.maxStates ∧
      ∀ target, (automaton.reached current symbol).contains target ↔
        ∃ source, current.contains source ∧ automaton.successors.contains source symbol target := by
  -- The rows all have the fresh set's size, so the fold of unions loses no target.
  have size : ∀ state, (automaton.successors.row state symbol).words.size =
      (StateSet.ofCapacity automaton.maxStates).words.size := by
    intro state
    rw [TransitionMatrix.size_row, shaped.successors]
    exact Array.size_replicate.symm
  obtain ⟨width, members⟩ := StateSet.contains_foldl_union current.toList size
  constructor
  · have whole := StateSet.capacity_ofCapacity automaton.maxStates
    rw [shaped.reached.countFor_mul] at whole
    rw [reached, StateSet.capacity, width, ← StateSet.capacity, whole]
  · intro target
    rw [reached, members]
    simp [StateSet.mem_toList, TransitionMatrix.contains]

section Reached

variable (represents : automaton.Represents plain) {current : StateSet}
  (states : ∀ state, current.contains state → state ∈ plain.active)
include represents states

/-- A symbol leads to the states that transitions of the plain automaton reach. -/
theorem Represents.contains_reached_iff {symbol : Nat} (inAlphabet : symbol < plain.alphabetSize)
    (target : Nat) : (automaton.reached current symbol).contains target ↔
      ∃ source, current.contains source ∧ ⟨source, target, symbol⟩ ∈ plain.transitions := by
  rw [(contains_reached represents.shaped current symbol).2]
  refine exists_congr fun source => and_congr_right fun held => ?_
  exact (represents.layers symbol inAlphabet).successors source (states source held) target

/-- States reached by a symbol are states of the plain automaton. -/
theorem Represents.reached_active {symbol : Nat} (inAlphabet : symbol < plain.alphabetSize)
    (target : Nat) (held : (automaton.reached current symbol).contains target) :
    target ∈ plain.active := by
  obtain ⟨source, _, step⟩ := (represents.contains_reached_iff states inAlphabet target).1 held
  exact plain.target_active _ step

end Reached

open scoped Classical in
/-- Matching from some states tells whether a run from one of them reads the word to a final state. -/
theorem Represents.matchFrom (represents : automaton.Represents plain) {current : StateSet}
    (room : current.capacity = automaton.maxStates)
    (states : ∀ state, current.contains state → state ∈ plain.active) {word : List Symbol}
    (within : Sample.Within plain.alphabetSize word) :
    automaton.matchFrom current word = .ok (decide (∃ source, current.contains source ∧
      ∃ last ∈ plain.finals, plain.Run source word last)) := by
  -- The induction follows the word, with all states that are reached at once.
  induction word generalizing current with
  | nil =>
    -- At the end of the word the current set is compared with the final one.
    have size : current.words.size = automaton.finals.words.size :=
      StateSet.size_eq_of_capacity_eq (room.trans represents.shaped.finals.symm)
    rw [Automaton.matchFrom]
    refine congrArg Except.ok (Bool.eq_iff_iff.2 ?_)
    rw [StateSet.meets_iff size, decide_eq_true_eq]
    constructor
    · rintro ⟨state, held, final⟩
      exact ⟨state, held, state, (represents.finals state).1 final, .stay state⟩
    · rintro ⟨source, held, last, final, run⟩
      cases run
      exact ⟨source, held, (represents.finals source).2 final⟩
  | cons symbol rest hypothesis =>
    obtain ⟨inAlphabet, restWithin⟩ := within.of_cons
    rw [Automaton.matchFrom, represents.symbolIndex, if_pos inAlphabet]
    by_cases ended : current.isEmpty
    · -- Without a current state there is no run at all.
      have vacant : ¬∃ source, current.contains source := by
        rw [← StateSet.isNonempty_iff]
        simpa [StateSet.isEmpty] using ended
      have none : ¬∃ source, current.contains source ∧
          ∃ last ∈ plain.finals, plain.Run source (symbol :: rest) last := by
        rintro ⟨source, held, _⟩
        exact vacant ⟨source, held⟩
      simp [Bind.bind, Except.bind, Pure.pure, Except.pure, ended, none]
    · -- A run goes on through one of the states that are reached by the symbol.
      have width := (contains_reached represents.shaped current symbol.toNat).1
      have reached := represents.contains_reached_iff states inAlphabet
      have later := hypothesis width (represents.reached_active states inAlphabet) restWithin
      simp only [Bind.bind, Except.bind, ended, Bool.false_eq_true, if_false, Pure.pure,
        Except.pure, later]
      refine congrArg Except.ok (decide_eq_decide.2 ?_)
      constructor
      · rintro ⟨target, held, last, final, run⟩
        obtain ⟨source, start, first⟩ := (reached target).1 held
        exact ⟨source, start, last, final, .step first run⟩
      · rintro ⟨source, start, last, final, run⟩
        cases run with
        | step first later => exact ⟨_, (reached _).2 ⟨source, start, first⟩, last, final, later⟩

open scoped Classical in
/-- Matching a word over the alphabet tells whether the plain automaton accepts it. -/
theorem Represents.isMatch (represents : automaton.Represents plain) {word : List Symbol}
    (within : Sample.Within plain.alphabetSize word) :
    automaton.isMatch word = .ok (decide (plain.Accepts word)) := by
  -- From the initial states the walk accepts exactly when some run of the plain automaton does.
  have matched := represents.matchFrom represents.shaped.initial
    (fun state held => plain.initial_subset ((represents.initial state).1 held)) within
  rw [Automaton.isMatch, matched]
  refine congrArg Except.ok (decide_eq_decide.2 ?_)
  exact exists_congr fun state => and_congr (represents.initial state) Iff.rfl

/-- A word over the alphabet matches exactly if the plain automaton accepts it. -/
theorem Represents.isMatch_eq_true (represents : automaton.Represents plain) {word : List Symbol}
    (within : Sample.Within plain.alphabetSize word) :
    automaton.isMatch word = .ok true ↔ plain.Accepts word := by
  simp [represents.isMatch within]

/-- A word over the alphabet does not match exactly if the plain automaton does not accept it. -/
theorem Represents.isMatch_eq_false (represents : automaton.Represents plain) {word : List Symbol}
    (within : Sample.Within plain.alphabetSize word) :
    automaton.isMatch word = .ok false ↔ ¬plain.Accepts word := by
  simp [represents.isMatch within]

/-- The words that match. -/
def language (automaton : Automaton) : Set Sample := {word | automaton.isMatch word = .ok true}

/-- No word matches that has a symbol outside the alphabet. -/
theorem Represents.within_of_matchFrom (represents : automaton.Represents plain) {current : StateSet}
    {word : List Symbol} (matched : automaton.matchFrom current word = .ok true) :
    Sample.Within plain.alphabetSize word := by
  induction word generalizing current with
  | nil => exact fun symbol member => absurd member List.not_mem_nil
  | cons symbol rest hypothesis =>
    rw [Automaton.matchFrom, represents.symbolIndex] at matched
    by_cases inAlphabet : symbol.toNat < plain.alphabetSize
    · rw [if_pos inAlphabet] at matched
      -- The rest of the word is read only where a state is left.
      by_cases ended : current.isEmpty
      · simp [Bind.bind, Except.bind, Pure.pure, Except.pure, ended] at matched
      · simp only [Bind.bind, Except.bind, ended, Bool.false_eq_true, if_false, Pure.pure,
          Except.pure] at matched
        exact List.forall_mem_cons.2 ⟨inAlphabet, hypothesis matched⟩
    · rw [if_neg inAlphabet] at matched
      cases matched

/-- A word matches exactly if the plain automaton accepts it. -/
theorem Represents.mem_language (represents : automaton.Represents plain) {word : List Symbol} :
    word ∈ automaton.language ↔ plain.Accepts word := by
  -- A word that matches was in range, so both verdicts speak of the same words.
  constructor
  · intro matched
    exact (represents.isMatch_eq_true (represents.within_of_matchFrom matched)).1 matched
  · intro accepts
    exact (represents.isMatch_eq_true accepts.within).2 accepts

open scoped Classical in
/-- Looking for an accepted word finds out whether there is one. -/
theorem Represents.acceptsAny (represents : automaton.Represents plain) {words : List (List Symbol)}
    (within : ∀ word ∈ words, Sample.Within plain.alphabetSize word) :
    automaton.acceptsAny words = .ok (decide (∃ word ∈ words, plain.Accepts word)) := by
  -- The search ends at the first accepted word, and each verdict before it is the plain one's.
  induction words with
  | nil => simp [Automaton.acceptsAny]
  | cons word rest hypothesis =>
    obtain ⟨wordWithin, restWithin⟩ := List.forall_mem_cons.1 within
    have first := represents.isMatch wordWithin
    have later := hypothesis restWithin
    rw [Automaton.acceptsAny, first]
    by_cases accepted : plain.Accepts word
    · simp [Bind.bind, Except.bind, Pure.pure, Except.pure, accepted]
    · simp [Bind.bind, Except.bind, accepted, later]

/-- Counting the accepted words over the alphabet counts those that the plain automaton accepts. -/
theorem Represents.acceptedCount (represents : automaton.Represents plain)
    {words : List (List Symbol)} (within : ∀ word ∈ words, Sample.Within plain.alphabetSize word) :
    automaton.acceptedCount words = .ok (plain.acceptedCount words) := by
  induction words with
  | nil => rfl
  | cons word rest hypothesis =>
    obtain ⟨wordWithin, restWithin⟩ := List.forall_mem_cons.1 within
    rw [Automaton.acceptedCount, bind_of_ok (represents.isMatch wordWithin),
      bind_of_ok (hypothesis restWithin)]
    refine congrArg Except.ok ?_
    -- The first word counts if it is accepted.
    by_cases accepted : plain.Accepts word
    · simp [PlainAutomaton.acceptedCount, accepted]
    · simp [PlainAutomaton.acceptedCount, accepted]

end Automaton

end NfaInduction
