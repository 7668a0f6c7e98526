import NfaInduction.Proofs.Automaton.Walk

/-! Matching fails exactly at a first symbol outside the alphabet that a run is still alive to meet. -/

namespace NfaInduction

/-- A symbol of a word at which reading fails, if something is left to read on at each earlier place. -/
structure Sample.FailsAt (alphabetSize : Nat) (alive : List Symbol → Prop) (word : List Symbol)
    (index : Nat) (symbol : Symbol) : Prop where
  /-- The symbol stands at this place. -/
  found : word[index]? = some symbol
  /-- It lies outside the alphabet. -/
  outside : alphabetSize ≤ symbol.toNat
  /-- It is the first to do so. -/
  within : Sample.Within alphabetSize (word.take index)
  /-- Something is left behind the symbols before each earlier place. -/
  alive : ∀ earlier < index, alive (word.take earlier)

namespace Sample

variable {alphabetSize : Nat} {alive : List Symbol → Prop} {first symbol : Symbol}
  {rest : List Symbol}

/-- Reading fails at once exactly if the first symbol lies outside the alphabet. -/
theorem failsAt_cons_zero :
    FailsAt alphabetSize alive (first :: rest) 0 symbol ↔
      first = symbol ∧ alphabetSize ≤ symbol.toNat := by
  -- Nothing was read before the first symbol.
  constructor
  · intro fails
    exact ⟨Option.some.inj fails.found, fails.outside⟩
  · rintro ⟨rfl, outside⟩
    exact ⟨rfl, outside, fun _ member => absurd member List.not_mem_nil, nofun⟩

/-- Reading fails later exactly if the first symbol is read and the rest then fails. -/
theorem failsAt_cons_succ {index : Nat} :
    FailsAt alphabetSize alive (first :: rest) (index + 1) symbol ↔
      first.toNat < alphabetSize ∧ alive [] ∧
        FailsAt alphabetSize (fun read => alive (first :: read)) rest index symbol := by
  -- The first symbol was read, and all else happens behind it.
  constructor
  · intro fails
    obtain ⟨inAlphabet, within⟩ := fails.within.of_cons
    exact ⟨inAlphabet, fails.alive 0 (Nat.zero_lt_succ index), fails.found, fails.outside, within,
      fun earlier before => fails.alive (earlier + 1) (Nat.succ_lt_succ before)⟩
  · rintro ⟨inAlphabet, start, fails⟩
    refine ⟨fails.found, fails.outside, List.forall_mem_cons.2 ⟨inAlphabet, fails.within⟩, ?_⟩
    intro earlier before
    cases earlier with
    | zero => exact start
    | succ earlier => exact fails.alive earlier (Nat.lt_of_succ_lt_succ before)

/-- Only what is left to read on at earlier places matters. -/
theorem failsAt_congr {left : List Symbol → Prop} (same : ∀ read, alive read ↔ left read)
    {word : List Symbol} {index : Nat} :
    FailsAt alphabetSize alive word index symbol ↔ FailsAt alphabetSize left word index symbol := by
  obtain rfl : alive = left := funext fun read => propext (same read)
  exact Iff.rfl

end Sample

namespace PlainAutomaton

/-- Some run from one of the current states reads a word. -/
def Reads (plain : PlainAutomaton) (current : StateSet) (word : List Symbol) : Prop :=
  ∃ source last, current.contains source ∧ plain.Run source word last

/-- Nothing is read exactly if there is a current state. -/
theorem reads_nil {plain : PlainAutomaton} {current : StateSet} :
    plain.Reads current [] ↔ current.isEmpty = false := by
  -- A run without steps starts and ends at one state.
  rw [StateSet.isEmpty, Bool.not_eq_false', StateSet.isNonempty_iff]
  constructor
  · rintro ⟨source, _, held, _⟩
    exact ⟨source, held⟩
  · rintro ⟨source, held⟩
    exact ⟨source, source, held, .stay source⟩

end PlainAutomaton

namespace Automaton

/-- A walk through states that reads a word from an initial state on, wherever it ends. -/
structure InitialWalk (automaton : Automaton) (word : List Symbol) (walk : Nat → Nat) : Prop where
  /-- The first state is initial. -/
  initial : automaton.isInitial (walk 0)
  /-- Each symbol leads from one state to the next by a transition. -/
  steps : ∀ index, (within : index < word.length) →
    ⟨walk index, walk (index + 1), word[index].toNat⟩ ∈ automaton.transitions

/-- Some state is reached by a word. -/
def IsAlive (automaton : Automaton) (word : List Symbol) : Prop :=
  ∃ walk, automaton.InitialWalk word walk

variable {automaton : Automaton} {plain : PlainAutomaton}

section Current

variable (represents : automaton.Represents plain) {current : StateSet}
  (states : ∀ state, current.contains state → state ∈ plain.active)
include represents states

/-- A word is read if its rest is read from the states that its first symbol leads to. -/
theorem Represents.reads_cons {symbol : Symbol} (inAlphabet : symbol.toNat < plain.alphabetSize)
    (rest : List Symbol) : plain.Reads current (symbol :: rest) ↔
      plain.Reads (automaton.reached current symbol.toNat) rest := by
  -- The first step leads to one of the states that are reached.
  have reached := represents.contains_reached_iff states inAlphabet
  constructor
  · rintro ⟨source, last, held, run⟩
    cases run with
    | @step _ middle _ _ _ first later =>
      exact ⟨middle, last, (reached middle).2 ⟨source, held, first⟩, later⟩
  · rintro ⟨middle, last, held, later⟩
    obtain ⟨source, start, first⟩ := (reached middle).1 held
    exact ⟨source, last, start, .step first later⟩

/-- Behind a symbol of the alphabet, reading fails where the rest fails from the states reached. -/
theorem Represents.failsAt_cons {first : Symbol} (inAlphabet : first.toNat < plain.alphabetSize)
    {rest : List Symbol} {index : Nat} {symbol : Symbol} :
    Sample.FailsAt plain.alphabetSize (plain.Reads current) (first :: rest) index symbol ↔
      ∃ place, index = place + 1 ∧ plain.Reads current [] ∧ Sample.FailsAt plain.alphabetSize
        (plain.Reads (automaton.reached current first.toNat)) rest place symbol := by
  -- A symbol of the alphabet is not the one that fails.
  cases index with
  | zero =>
    refine ⟨fun fails => ?_, nofun⟩
    obtain ⟨rfl, outside⟩ := Sample.failsAt_cons_zero.1 fails
    exact absurd inAlphabet (Nat.not_lt.2 outside)
  | succ index =>
    have same := represents.reads_cons states inAlphabet
    rw [Sample.failsAt_cons_succ, Sample.failsAt_congr same]
    constructor
    · rintro ⟨_, start, fails⟩
      exact ⟨index, rfl, start, fails⟩
    · rintro ⟨place, next, start, fails⟩
      obtain rfl := Nat.succ.inj next
      exact ⟨inAlphabet, start, fails⟩

/-- Matching from some states fails exactly where a word that runs still read leaves the alphabet. -/
theorem Represents.matchFrom_eq_error {word : List Symbol} {fault : Fault} :
    automaton.matchFrom current word = .error fault ↔ ∃ index symbol,
      Sample.FailsAt plain.alphabetSize (plain.Reads current) word index symbol ∧
        fault = .symbolOutOfRange symbol plain.alphabetSize := by
  -- The induction follows the word, with all states that are reached at once.
  induction word generalizing current with
  | nil =>
    refine ⟨nofun, ?_⟩
    rintro ⟨index, symbol, fails, _⟩
    cases fails.found
  | cons first rest ih =>
    rw [Automaton.matchFrom, represents.symbolIndex]
    by_cases inAlphabet : first.toNat < plain.alphabetSize
    · rw [if_pos inAlphabet, bind_of_ok rfl]
      by_cases ended : current.isEmpty
      · -- Nothing behind this symbol is looked at.
        rw [if_pos ended]
        constructor
        · rintro ⟨⟩
        · rintro ⟨index, symbol, fails, _⟩
          obtain ⟨_, _, start, _⟩ := (represents.failsAt_cons states inAlphabet).1 fails
          exact absurd (PlainAutomaton.reads_nil.1 start) (by simp [ended])
      · -- With a state left, the failure lies in the rest of the word.
        rw [if_neg ended, ih (represents.reached_active states inAlphabet)]
        have start : plain.Reads current [] := PlainAutomaton.reads_nil.2 (by simpa using ended)
        constructor
        · rintro ⟨index, symbol, fails, same⟩
          exact ⟨index + 1, symbol,
            (represents.failsAt_cons states inAlphabet).2 ⟨index, rfl, start, fails⟩, same⟩
        · rintro ⟨index, symbol, fails, same⟩
          obtain ⟨place, _, _, fails⟩ := (represents.failsAt_cons states inAlphabet).1 fails
          exact ⟨place, symbol, fails, same⟩
    · -- The symbol is noticed, whether or not a state is left.
      rw [if_neg inAlphabet, bind_of_error rfl]
      constructor
      · rintro ⟨⟩
        exact ⟨0, first, Sample.failsAt_cons_zero.2 ⟨rfl, Nat.le_of_not_lt inAlphabet⟩, rfl⟩
      · rintro ⟨index, symbol, fails, rfl⟩
        cases index with
        | zero => rw [(Sample.failsAt_cons_zero.1 fails).1]
        | succ index => exact absurd (Sample.failsAt_cons_succ.1 fails).1 inAlphabet

end Current

/-- A word is read from the initial states exactly if some state is reached by it. -/
theorem Represents.isAlive_iff (represents : automaton.Represents plain) {word : List Symbol} :
    automaton.IsAlive word ↔ plain.Reads automaton.initial word := by
  -- A run is a walk along transitions.
  constructor
  · rintro ⟨walk, initial, steps⟩
    refine ⟨walk 0, walk word.length, initial, ?_⟩
    exact PlainAutomaton.run_iff_exists_walk.2 ⟨walk, rfl, rfl,
      fun index within => (represents.mem_transitions _).1 (steps index within)⟩
  · rintro ⟨source, last, initial, run⟩
    obtain ⟨walk, rfl, rfl, steps⟩ := PlainAutomaton.run_iff_exists_walk.1 run
    exact ⟨walk, initial, fun index within => (represents.mem_transitions _).2 (steps index within)⟩

/-- Matching a word fails exactly where it leaves the alphabet while states are still reached. -/
theorem Represents.isMatch_eq_error (represents : automaton.Represents plain) {word : List Symbol}
    {fault : Fault} : automaton.isMatch word = .error fault ↔ ∃ index symbol,
      Sample.FailsAt automaton.alphabetSize automaton.IsAlive word index symbol ∧
        fault = .symbolOutOfRange symbol automaton.alphabetSize := by
  -- Matching starts with the initial states, which are active.
  rw [Automaton.isMatch, represents.alphabet, represents.matchFrom_eq_error fun state held =>
    plain.initial_subset ((represents.initial state).1 held)]
  refine exists₂_congr fun index symbol => and_congr_left fun _ => ?_
  exact Sample.failsAt_congr fun read => represents.isAlive_iff.symm

/-- A match is found exactly if a walk reads the word, which then keeps to the alphabet. -/
theorem Represents.isMatch_eq_ok_true (represents : automaton.Represents plain)
    {word : List Symbol} : automaton.isMatch word = .ok true ↔
      ∃ walk, automaton.AcceptingWalk word walk :=
  represents.mem_language.trans represents.accepts_iff_exists_walk

/--
Matching fails exactly at a first symbol outside the alphabet that some run is alive to meet.

Every other word gets the verdict of the walks that read it, and none reads such a symbol.
-/
theorem isMatch_frontier (reachable : automaton.Reachable) (word : List Symbol) :
    (∀ fault, automaton.isMatch word = .error fault ↔ ∃ index symbol,
      Sample.FailsAt automaton.alphabetSize automaton.IsAlive word index symbol ∧
        fault = .symbolOutOfRange symbol automaton.alphabetSize ∧
        fault.message = s!"symbol out of range: {symbol.toNat} >= {automaton.alphabetSize}") ∧
    ((∀ index symbol,
        ¬Sample.FailsAt automaton.alphabetSize automaton.IsAlive word index symbol) →
      ∃ verdict, automaton.isMatch word = .ok verdict ∧
        (verdict = true ↔ ∃ walk, automaton.AcceptingWalk word walk) ∧
        (¬Sample.Within automaton.alphabetSize word → verdict = false)) := by
  -- Either a symbol fails at the frontier, or matching is answered as by the plain automaton.
  obtain ⟨plain, represents⟩ := reachable.exists_represents
  constructor
  · intro fault
    rw [represents.isMatch_eq_error]
    refine exists₂_congr fun index symbol => and_congr_right fun _ => ?_
    refine ⟨fun same => ⟨same, ?_⟩, And.left⟩
    rw [same]
    rfl
  · intro fails
    cases matched : automaton.isMatch word with
    | error fault =>
      obtain ⟨index, symbol, failsAt, _⟩ := represents.isMatch_eq_error.1 matched
      exact absurd failsAt (fails index symbol)
    | ok verdict =>
      refine ⟨verdict, rfl, ?_, fun leaves => Bool.eq_false_iff.2 fun accepted => leaves ?_⟩
      · rw [← represents.isMatch_eq_ok_true, matched, Except.ok.injEq]
      · rw [accepted] at matched
        exact represents.alphabet ▸ represents.within_of_matchFrom matched

/--
After one symbol no state is left on a loop that starts with the other one.

A symbol outside the alphabet is met just behind it, and no more one place later.
-/
theorem isMatch_frontier_loop : ∃ automaton : Automaton, automaton.Reachable ∧
    Sample.FailsAt automaton.alphabetSize automaton.IsAlive [0, 7] 1 7 ∧
    automaton.isMatch [0, 7] = .error (.symbolOutOfRange 7 2) ∧
    (∀ index symbol,
      ¬Sample.FailsAt automaton.alphabetSize automaton.IsAlive [0, 0, 7] index symbol) ∧
    automaton.isMatch [0, 0, 7] = .ok false := by
  have present : ((Shelf.run Automaton loopRun).1 0).isSome := rfl
  obtain ⟨automaton, held⟩ := Option.isSome_iff_exists.1 present
  have evaluated : ∀ automaton ∈ (Shelf.run Automaton loopRun).1 0,
      automaton.isMatch [0, 7] = .error (.symbolOutOfRange 7 2) ∧
      automaton.isMatch [0, 0, 7] = .ok false := by
    decide +kernel
  obtain ⟨failed, rejected⟩ := evaluated automaton held
  have reachable : automaton.Reachable := ⟨loopRun, 0, held⟩
  refine ⟨automaton, reachable, ?_, failed, fun index symbol fails => ?_, rejected⟩
  · obtain ⟨index, symbol, fails, same, _⟩ := ((isMatch_frontier reachable [0, 7]).1 _).1 failed
    obtain ⟨rfl, _⟩ := Fault.symbolOutOfRange.inj same
    -- The symbol stands in one place only.
    have place : index = 1 := by
      have found := fails.found
      match index with
      | 0 => exact absurd found (by decide)
      | 1 => rfl
      | _ + 2 => exact absurd found (by simp)
    exact place ▸ fails
  · have failed := ((isMatch_frontier reachable [0, 0, 7]).1 (.symbolOutOfRange symbol _)).2
      ⟨index, symbol, fails, rfl, rfl⟩
    rw [rejected] at failed
    cases failed

end Automaton

end NfaInduction
