import NfaInduction.Proofs.Automaton.Coherence
import NfaInduction.Proofs.Automaton.Match

/-! Matching decides whether a walk through the states reads a word, whichever sets it keeps meanwhile. -/

namespace NfaInduction

namespace PlainAutomaton

variable {plain : PlainAutomaton}

/-- A run passes one state more than it reads symbols, each of which takes it to the next state. -/
theorem run_iff_exists_walk {source target : Nat} {word : List Symbol} :
    plain.Run source word target ↔ ∃ walk : Nat → Nat, walk 0 = source ∧
      walk word.length = target ∧ ∀ index, (within : index < word.length) →
        ⟨walk index, walk (index + 1), word[index].toNat⟩ ∈ plain.transitions := by
  constructor
  · intro run
    induction run with
    | stay state => exact ⟨fun _ => state, rfl, rfl, fun _ within => absurd within (Nat.not_lt_zero _)⟩
    | @step source middle target symbol rest first _ ih =>
      obtain ⟨walk, rfl, finish, steps⟩ := ih
      -- The walk of the rest is taken one place later, behind the source.
      refine ⟨fun index => Nat.casesOn index source walk, rfl, finish, fun index within => ?_⟩
      cases index with
      | zero => exact first
      | succ index => exact steps index (Nat.lt_of_succ_lt_succ within)
  · rintro ⟨walk, rfl, rfl, steps⟩
    induction word generalizing walk with
    | nil => exact .stay _
    | cons symbol rest ih =>
      refine .step (steps 0 (Nat.zero_lt_succ _)) (ih (fun index => walk (index + 1)) ?_)
      exact fun index within => steps (index + 1) (Nat.succ_lt_succ within)

end PlainAutomaton

namespace Automaton

/-- A walk through states that reads a word on its way from an initial to a final state. -/
structure AcceptingWalk (automaton : Automaton) (word : List Symbol) (walk : Nat → Nat) : Prop where
  /-- The first state is initial. -/
  initial : automaton.isInitial (walk 0)
  /-- The state behind the last symbol is final. -/
  final : automaton.isFinal (walk word.length)
  /-- Each symbol leads from one state to the next by a transition. -/
  steps : ∀ index, (within : index < word.length) →
    ⟨walk index, walk (index + 1), word[index].toNat⟩ ∈ automaton.transitions

/-- Two sets to match with: the current states, and a set that is of no more use. -/
structure Buffers where
  /-- States reached by the symbols read so far. -/
  current : StateSet
  /-- The set into which the next states are put. -/
  spare : StateSet

/-- The sets after a symbol: the spare one is emptied and filled, and both change places. -/
def advance (automaton : Automaton) (buffers : Buffers) (symbol : Nat) : Buffers where
  current := buffers.current.toList.foldl
    (fun next state => next.union (automaton.successors.row state symbol)) buffers.spare.clear
  spare := buffers.current

/-- Matching with two sets, which ends early or goes on where no state is left. -/
def matchWith (automaton : Automaton) (leavesEarly : Bool) (buffers : Buffers) :
    List Symbol → Except Fault Bool
  | [] => .ok (buffers.current.meets automaton.finals)
  | symbol :: rest => do
    let symbol ← automaton.symbolIndex symbol
    -- The symbol was checked already, and those behind it are not looked at.
    if leavesEarly && buffers.current.isEmpty then return false
    automaton.matchWith leavesEarly (automaton.advance buffers symbol) rest

variable {automaton : Automaton} {plain : PlainAutomaton}

/-- An accepted word is read on a walk, and a word read on a walk is accepted. -/
theorem Represents.accepts_iff_exists_walk (represents : automaton.Represents plain)
    {word : List Symbol} : plain.Accepts word ↔ ∃ walk, automaton.AcceptingWalk word walk := by
  -- A run read as a function from positions to states, both ways.
  constructor
  · rintro ⟨start, initial, last, final, run⟩
    obtain ⟨walk, rfl, rfl, steps⟩ := PlainAutomaton.run_iff_exists_walk.1 run
    exact ⟨walk, (represents.initial _).2 initial, (represents.finals _).2 final,
      fun index within => (represents.mem_transitions _).2 (steps index within)⟩
  · rintro ⟨walk, initial, final, steps⟩
    refine ⟨walk 0, (represents.initial _).1 initial, _, (represents.finals _).1 final, ?_⟩
    exact PlainAutomaton.run_iff_exists_walk.2 ⟨walk, rfl, rfl,
      fun index within => (represents.mem_transitions _).1 (steps index within)⟩

/-- A set that is emptied is the empty set of its capacity. -/
theorem clear_eq_ofCapacity {spare : StateSet} (shaped : automaton.Shaped)
    (room : spare.capacity = automaton.maxStates) :
    spare.clear = StateSet.ofCapacity automaton.maxStates := by
  have whole := StateSet.capacity_ofCapacity automaton.maxStates
  rw [shaped.reached.countFor_mul] at whole
  refine StateSet.eq_of_contains ?_ (by simp)
  exact StateSet.size_eq_of_capacity_eq (by rw [StateSet.capacity_clear, room, whole])

section Buffers

variable (shaped : automaton.Shaped) {buffers : Buffers}
  (current : buffers.current.capacity = automaton.maxStates)
  (spare : buffers.spare.capacity = automaton.maxStates)
include shaped spare

/-- Whatever the spare set held, the states reached are put into it. -/
theorem current_advance (symbol : Nat) :
    (automaton.advance buffers symbol).current = automaton.reached buffers.current symbol := by
  rw [advance, reached, clear_eq_ofCapacity shaped spare]

include current

/-- No state is accepted once none is left, even if the rest of the word is read. -/
theorem matchWith_of_isEmpty (ended : buffers.current.isEmpty) {word : List Symbol}
    (within : Sample.Within automaton.alphabetSize word) :
    automaton.matchWith false buffers word = .ok false := by
  have vacant : ∀ state, ¬buffers.current.contains state := by
    intro state held
    have present := StateSet.isNonempty_iff.2 ⟨state, held⟩
    rw [StateSet.isEmpty, present] at ended
    cases ended
  induction word generalizing buffers with
  | nil =>
    have size : buffers.current.words.size = automaton.finals.words.size :=
      StateSet.size_eq_of_capacity_eq (current.trans shaped.finals.symm)
    rw [matchWith]
    refine congrArg Except.ok (Bool.eq_false_iff.2 fun meets => ?_)
    obtain ⟨state, held, _⟩ := (StateSet.meets_iff size).1 meets
    exact vacant state held
  | cons symbol rest ih =>
    obtain ⟨inAlphabet, restWithin⟩ := within.of_cons
    obtain ⟨room, members⟩ := contains_reached shaped buffers.current symbol.toNat
    rw [← current_advance shaped spare symbol.toNat] at room members
    -- Nothing is reached from no state.
    have nothing : ∀ state, ¬(automaton.advance buffers symbol.toNat).current.contains state := by
      intro state held
      obtain ⟨source, start, _⟩ := (members state).1 held
      exact vacant source start
    have endedAgain : (automaton.advance buffers symbol.toNat).current.isEmpty := by
      rw [StateSet.isEmpty, Bool.not_eq_true', Bool.eq_false_iff, ne_eq, StateSet.isNonempty_iff]
      rintro ⟨state, held⟩
      exact nothing state held
    rw [matchWith, symbolIndex, if_pos inAlphabet]
    exact ih room current endedAgain restWithin nothing

/-- Matching with two sets that are exchanged answers as matching with new ones does. -/
theorem matchWith_eq (leavesEarly : Bool) {word : List Symbol}
    (within : Sample.Within automaton.alphabetSize word) :
    automaton.matchWith leavesEarly buffers word = automaton.matchFrom buffers.current word := by
  -- The set that is spare after a symbol has the room of the one that was current before.
  induction word generalizing buffers with
  | nil => rfl
  | cons symbol rest ih =>
    obtain ⟨inAlphabet, restWithin⟩ := within.of_cons
    have room := (contains_reached shaped buffers.current symbol.toNat).1
    have next := current_advance shaped spare symbol.toNat
    by_cases ended : buffers.current.isEmpty
    · have answer : automaton.matchFrom buffers.current (symbol :: rest) = .ok false := by
        rw [matchFrom, symbolIndex, if_pos inAlphabet]
        exact if_pos ended
      rw [answer]
      cases leavesEarly with
      | false => exact matchWith_of_isEmpty shaped current spare ended within
      | true =>
        rw [matchWith, symbolIndex, if_pos inAlphabet]
        exact if_pos ended
    · have later : automaton.matchWith leavesEarly (automaton.advance buffers symbol.toNat) rest =
          automaton.matchFrom (automaton.advance buffers symbol.toNat).current rest :=
        ih (next ▸ room) current restWithin
      rw [next] at later
      rw [matchWith, matchFrom, symbolIndex, if_pos inAlphabet, bind_of_ok rfl, bind_of_ok rfl,
        if_neg ended, if_neg (by simp [ended]), later]

end Buffers

/-- A word over the alphabet matches if a walk reads it, with any spare set and however early it ends. -/
theorem isMatch_walk (reachable : automaton.Reachable) {word : List Symbol}
    (within : Sample.Within automaton.alphabetSize word) :
    ∃ verdict, automaton.isMatch word = .ok verdict ∧
      (verdict = true ↔ ∃ walk, automaton.AcceptingWalk word walk) ∧
      ∀ (leavesEarly : Bool) (spare : StateSet), spare.capacity = automaton.maxStates →
        automaton.matchWith leavesEarly ⟨automaton.initial, spare⟩ word = .ok verdict := by
  -- The early return and the spare set drop out, since the current set decides each step.
  classical
  obtain ⟨plain, represents⟩ := reachable.exists_represents
  have matched := represents.isMatch (represents.alphabet ▸ within)
  refine ⟨_, matched, ?_, fun leavesEarly spare room => ?_⟩
  · rw [decide_eq_true_iff]
    exact represents.accepts_iff_exists_walk
  · let buffers : Buffers := ⟨automaton.initial, spare⟩
    have current : buffers.current.capacity = automaton.maxStates := represents.shaped.initial
    have spare : buffers.spare.capacity = automaton.maxStates := room
    exact (matchWith_eq represents.shaped current spare leavesEarly within).trans matched

/-- A loop of two states that is closed by a merge. -/
def loopRun : List Shelf.Call := [
  .create 0 (.alphabet 2), .act 0 (.setInitial 0), .act 0 (.setTransition 0 2 1),
  .act 0 (.setTransition 2 1 0), .act 0 (.setFinal 2), .act 0 (.merge 0 1)]

/-- A word that goes around the loop is read on a walk, also where the spare set starts with members. -/
theorem isMatch_walk_loop : ∃ automaton : Automaton, automaton.Reachable ∧
    Sample.Within automaton.alphabetSize [1, 0, 1] ∧
    (∃ walk, automaton.AcceptingWalk [1, 0, 1] walk) ∧ automaton.active.contains 2 ∧
    automaton.matchWith false ⟨automaton.initial, automaton.active⟩ [1, 0, 1] = .ok true := by
  -- The spare set starts with both active states in it, and the verdict is the same.
  have present : ((Shelf.run Automaton loopRun).1 0).isSome := rfl
  obtain ⟨automaton, held⟩ := Option.isSome_iff_exists.1 present
  have evaluated : ∀ automaton ∈ (Shelf.run Automaton loopRun).1 0,
      automaton.isMatch [1, 0, 1] = .ok true ∧ Sample.Within automaton.alphabetSize [1, 0, 1] ∧
      automaton.active.contains 2 := by
    decide +kernel
  obtain ⟨accepted, within, member⟩ := evaluated automaton held
  obtain ⟨verdict, matched, walks, buffered⟩ := isMatch_walk ⟨loopRun, 0, held⟩ within
  obtain rfl : verdict = true := Except.ok.inj (matched.symm.trans accepted)
  exact ⟨automaton, ⟨loopRun, 0, held⟩, within, walks.1 rfl, member,
    buffered false automaton.active rfl⟩

end Automaton

end NfaInduction
