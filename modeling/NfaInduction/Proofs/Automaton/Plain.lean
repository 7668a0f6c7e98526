import Mathlib.Data.Finset.Image
import NfaInduction.Automaton.Basic

/-! A plain automaton is what an automaton stands for: finite sets of states and transitions. -/

namespace NfaInduction

/-- The transition with both its states renamed. -/
def Automaton.Transition.rename (change : Nat → Nat) (step : Automaton.Transition) :
    Automaton.Transition :=
  ⟨change step.source, change step.target, step.symbol⟩

/-- A finite automaton given by its sets, without slots, words or rows. -/
structure PlainAutomaton where
  /-- Number of symbols, which are the numbers below it. -/
  alphabetSize : Nat
  /-- States of the automaton. -/
  active : Finset Nat
  /-- States where a run may start. -/
  initial : Finset Nat
  /-- States where a run may end. -/
  finals : Finset Nat
  /-- Steps of runs. -/
  transitions : Finset Automaton.Transition
  /-- Runs start in states of the automaton. -/
  initial_subset : initial ⊆ active
  /-- Runs end in states of the automaton. -/
  finals_subset : finals ⊆ active
  /-- Steps leave states of the automaton. -/
  source_active : ∀ step ∈ transitions, step.source ∈ active
  /-- Steps enter states of the automaton. -/
  target_active : ∀ step ∈ transitions, step.target ∈ active
  /-- Steps read symbols of the alphabet. -/
  symbol_lt : ∀ step ∈ transitions, step.symbol < alphabetSize

namespace PlainAutomaton

/-- The automaton without states. -/
@[simps] def empty (alphabetSize : Nat) : PlainAutomaton where
  alphabetSize := alphabetSize
  active := ∅
  initial := ∅
  finals := ∅
  transitions := ∅
  initial_subset := Finset.Subset.refl _
  finals_subset := Finset.Subset.refl _
  source_active := by simp
  target_active := by simp
  symbol_lt := by simp

/-- The automaton with one state more, if it is not there already. -/
@[simps] def addState (plain : PlainAutomaton) (state : Nat) : PlainAutomaton where
  alphabetSize := plain.alphabetSize
  active := insert state plain.active
  initial := plain.initial
  finals := plain.finals
  transitions := plain.transitions
  initial_subset := plain.initial_subset.trans (Finset.subset_insert _ _)
  finals_subset := plain.finals_subset.trans (Finset.subset_insert _ _)
  source_active step member := Finset.mem_insert_of_mem (plain.source_active step member)
  target_active step member := Finset.mem_insert_of_mem (plain.target_active step member)
  symbol_lt := plain.symbol_lt

/-- The automaton with an initial state more. -/
@[simps] def setInitial (plain : PlainAutomaton) (state : Nat) : PlainAutomaton :=
  { plain.addState state with
    initial := insert state plain.initial
    initial_subset := Finset.insert_subset_insert _ plain.initial_subset }

/-- The automaton with a final state more. -/
@[simps] def setFinal (plain : PlainAutomaton) (state : Nat) : PlainAutomaton :=
  { plain.addState state with
    finals := insert state plain.finals
    finals_subset := Finset.insert_subset_insert _ plain.finals_subset }

/-- The automaton with a transition more, and with the states that it joins. -/
@[simps] def setTransition (plain : PlainAutomaton) (source target symbol : Nat)
    (inAlphabet : symbol < plain.alphabetSize) : PlainAutomaton :=
  let joined := (plain.addState source).addState target
  { joined with
    transitions := insert ⟨source, target, symbol⟩ plain.transitions
    source_active := by
      -- The new step leaves a state that has just been added.
      intro step member
      rcases Finset.mem_insert.1 member with rfl | old
      · exact Finset.mem_insert_of_mem (Finset.mem_insert_self _ _)
      · exact joined.source_active step old
    target_active := by
      -- The new step enters a state that has just been added.
      intro step member
      rcases Finset.mem_insert.1 member with rfl | old
      · exact Finset.mem_insert_self _ _
      · exact joined.target_active step old
    symbol_lt := by
      intro step member
      rcases Finset.mem_insert.1 member with rfl | old
      · exact inAlphabet
      · exact plain.symbol_lt step old }

/-- The automaton with its states renamed, where states that get one name become one state. -/
@[simps] def rename (plain : PlainAutomaton) (change : Nat → Nat) : PlainAutomaton where
  alphabetSize := plain.alphabetSize
  active := plain.active.image change
  initial := plain.initial.image change
  finals := plain.finals.image change
  transitions := plain.transitions.image (·.rename change)
  -- Flags and ends are images of active states, and so active again.
  initial_subset := Finset.image_subset_image plain.initial_subset
  finals_subset := Finset.image_subset_image plain.finals_subset
  source_active := by
    intro step member
    obtain ⟨old, held, rfl⟩ := Finset.mem_image.1 member
    exact Finset.mem_image_of_mem change (plain.source_active old held)
  target_active := by
    intro step member
    obtain ⟨old, held, rfl⟩ := Finset.mem_image.1 member
    exact Finset.mem_image_of_mem change (plain.target_active old held)
  symbol_lt := by
    intro step member
    obtain ⟨old, held, rfl⟩ := Finset.mem_image.1 member
    exact plain.symbol_lt old held

/-- The name of a state after one state has absorbed another. -/
def standIn (kept absorbed state : Nat) : Nat := if state = absorbed then kept else state

/-- The automaton in which one state has absorbed another. -/
def merge (plain : PlainAutomaton) (kept absorbed : Nat) : PlainAutomaton :=
  plain.rename (standIn kept absorbed)

/-- Automata with the same alphabet and the same sets are the same. -/
@[ext] theorem ext {left right : PlainAutomaton} (alphabet : left.alphabetSize = right.alphabetSize)
    (active : left.active = right.active) (initial : left.initial = right.initial)
    (finals : left.finals = right.finals) (transitions : left.transitions = right.transitions) :
    left = right := by
  -- What else there is are proofs.
  cases left
  cases right
  simp_all

/-- The absorbed state goes by the name of the kept one. -/
@[simp] theorem standIn_self (kept absorbed : Nat) : standIn kept absorbed absorbed = kept :=
  if_pos rfl

/-- Every other state keeps its name. -/
theorem standIn_of_ne {absorbed state : Nat} (distinct : state ≠ absorbed) (kept : Nat) :
    standIn kept absorbed state = state :=
  if_neg distinct

/-- What holds of some state with a name holds of its bearer, or the name is taken over. -/
theorem exists_standIn {kept absorbed state : Nat} {holds : Nat → Prop} :
    (∃ old, holds old ∧ standIn kept absorbed old = state) ↔
      (holds state ∧ state ≠ absorbed) ∨ (state = kept ∧ holds absorbed) := by
  -- Only the absorbed state is sent elsewhere.
  constructor
  · rintro ⟨old, held, rfl⟩
    by_cases same : old = absorbed
    · subst same
      exact .inr ⟨standIn_self kept old, held⟩
    · rw [standIn_of_ne same]
      exact .inl ⟨held, same⟩
  · rintro (⟨held, other⟩ | ⟨rfl, held⟩)
    · exact ⟨state, held, standIn_of_ne other kept⟩
    · exact ⟨absorbed, held, standIn_self _ _⟩

/-- A transition joins states. -/
theorem ends_active (plain : PlainAutomaton) {step : Automaton.Transition}
    (member : step ∈ plain.transitions) : step.source ∈ plain.active ∧ step.target ∈ plain.active :=
  ⟨plain.source_active step member, plain.target_active step member⟩

/-- Adding a state that is there already changes nothing. -/
theorem addState_of_mem {plain : PlainAutomaton} {state : Nat} (member : state ∈ plain.active) :
    plain.addState state = plain := by
  -- A set has a member only once.
  ext1 <;> first | rfl | exact Finset.insert_eq_of_mem member

end PlainAutomaton

end NfaInduction
