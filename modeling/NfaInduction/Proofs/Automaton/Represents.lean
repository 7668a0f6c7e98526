import NfaInduction.Automaton.Edit
import NfaInduction.Proofs.Automaton.Plain
import NfaInduction.Proofs.TransitionMatrix

/-! An automaton represents a plain one if the rows of its active states hold that one's transitions. -/

namespace NfaInduction

namespace Automaton

/-- All sets and matrices have one capacity, and both matrices have one alphabet. -/
structure Shaped (automaton : Automaton) : Prop where
  /-- The capacity is a block doubled some times. -/
  reached : Capacity.Reached automaton.maxStates
  /-- Initial states have room. -/
  initial : automaton.initial.capacity = automaton.maxStates
  /-- Final states have room. -/
  finals : automaton.finals.capacity = automaton.maxStates
  /-- Steps have room where they are listed by target. -/
  predecessors : automaton.predecessors.capacity = automaton.maxStates
  /-- Steps have room where they are listed by source. -/
  successors : automaton.successors.capacity = automaton.maxStates
  /-- Both directions know the same symbols. -/
  alphabet : automaton.predecessors.alphabetSize = automaton.alphabetSize

/-- The rows that some states have for one symbol hold the same steps in both directions. -/
structure Layer (automaton : Automaton) (states : Finset Nat) (symbol : Nat)
    (steps : Nat → Nat → Prop) : Prop where
  /-- Steps are listed with their source. -/
  successors : ∀ source ∈ states, ∀ target,
    automaton.successors.contains source symbol target ↔ steps source target
  /-- Steps are listed with their target. -/
  predecessors : ∀ target ∈ states, ∀ source,
    automaton.predecessors.contains target symbol source ↔ steps source target

/-- An automaton stands for a plain one, whatever the rows of its inactive slots hold. -/
structure Represents (automaton : Automaton) (plain : PlainAutomaton) : Prop where
  /-- Sets and matrices fit each other. -/
  shaped : automaton.Shaped
  /-- The alphabet is the same. -/
  alphabet : automaton.alphabetSize = plain.alphabetSize
  /-- The slots in use are the states. -/
  active : ∀ state, automaton.active.contains state ↔ state ∈ plain.active
  /-- Initial states are flagged. -/
  initial : ∀ state, automaton.initial.contains state ↔ state ∈ plain.initial
  /-- Final states are flagged. -/
  finals : ∀ state, automaton.finals.contains state ↔ state ∈ plain.finals
  /-- The rows of the states hold the transitions. -/
  layers : ∀ symbol < plain.alphabetSize, automaton.Layer plain.active symbol
    fun source target => ⟨source, target, symbol⟩ ∈ plain.transitions

/-- Why an automaton over an alphabet has no room for a state. -/
inductive Outgrows (alphabetSize state : Nat) : Fault → Prop where
  /-- No automaton has a slot with this number. -/
  | limit (beyond : Capacity.maxStates ≤ state) :
      Outgrows alphabetSize state (.stateOutOfRange state Capacity.maxStates)
  /-- The matrix with this slot would exceed the address space. -/
  | matrix {capacity : Nat} (admitted : capacity ≤ Capacity.maxStates)
      (excessive : Capacity.tableWords alphabetSize capacity = none) :
      Outgrows alphabetSize state (.matrixTooLarge capacity alphabetSize)

/-- A call that needs a slot has led to the next plain automaton, or nothing for want of room. -/
def Occupies (before : Automaton) (state : Nat) (edit : Edit) (next : PlainAutomaton) : Prop :=
  (∃ after, edit = .done after ∧ after.Represents next) ∨
    ∃ fault, edit = ⟨before, some fault⟩ ∧ Outgrows next.alphabetSize state fault

/-- Why an automaton over an alphabet has no room for some state. -/
def Outgrown (alphabetSize : Nat) (fault : Fault) : Prop :=
  ∃ state, Outgrows alphabetSize state fault

namespace Represents

variable {automaton : Automaton} {plain : PlainAutomaton}

/-- A state lies below the capacity. -/
theorem lt_maxStates (represents : automaton.Represents plain) {state : Nat}
    (member : state ∈ plain.active) : state < automaton.maxStates :=
  -- The set of active states has it as a member.
  StateSet.lt_capacity_of_contains ((represents.active state).2 member)

/-- The capacity does not exceed the limit. -/
theorem maxStates_le (represents : automaton.Represents plain) :
    automaton.maxStates ≤ Capacity.maxStates :=
  represents.shaped.reached.bounds.2

end Represents

/-- An automaton without states represents the plain one without states. -/
theorem represents_blank (alphabetSize : Nat) :
    (blank alphabetSize).Represents (.empty alphabetSize) where
  -- A block is a size the growth rule reaches, and a fresh set of that capacity is exactly it.
  shaped := by
    have whole : (StateSet.ofCapacity Capacity.block).capacity = Capacity.block := by
      rw [StateSet.capacity_ofCapacity, Capacity.reached_block.countFor_mul]
    constructor
    case reached =>
      show Capacity.Reached (StateSet.ofCapacity Capacity.block).capacity
      rw [whole]
      exact Capacity.reached_block
    case predecessors | successors => exact whole.symm
    all_goals rfl
  alphabet := rfl
  active state := by simp [blank, ofMatrix, PlainAutomaton.empty]
  initial state := by simp [blank, ofMatrix, PlainAutomaton.empty]
  finals state := by simp [blank, ofMatrix, PlainAutomaton.empty]
  layers symbol _ := ⟨by simp [PlainAutomaton.empty], by simp [PlainAutomaton.empty]⟩

/-- A new automaton over an alphabet is the blank one if its matrix is addressable. -/
theorem ofAlphabet_of_isSome {alphabetSize : Nat}
    (addressable : (Capacity.tableWords alphabetSize Capacity.block).isSome) :
    ofAlphabet alphabetSize = .ok (blank alphabetSize) := by
  obtain ⟨words, counted⟩ := Option.isSome_iff_exists.1 addressable
  rw [ofAlphabet, TransitionMatrix.ofCapacity, counted]
  rfl

/-- A new automaton represents the plain one without states. -/
theorem represents_ofAlphabet {alphabetSize : Nat} {automaton : Automaton}
    (built : ofAlphabet alphabetSize = .ok automaton) :
    automaton.Represents (.empty alphabetSize) := by
  -- It is the blank one, if its matrix is addressable at all.
  rw [ofAlphabet, TransitionMatrix.ofCapacity] at built
  split at built <;> cases built
  exact represents_blank alphabetSize

end Automaton

end NfaInduction
