import Mathlib.Data.List.NodupEquivFin
import NfaInduction.Model.Basic
import NfaInduction.Proofs.Automaton.Match

/-! States are renumbered in their order, and transitions are listed by the pair that they join. -/

namespace NfaInduction

/--
Numbers entered one after the other are found where they were entered.

Each place is entered once, so that no number replaces another.
-/
theorem getD_foldl_setIfInBounds {places : List Nat} (distinct : places.Nodup)
    {numbers : Array Nat} (room : ∀ place ∈ places, place < numbers.size) (start place : Nat) :
    ((places.zipIdx start).foldl (fun numbers (place, number) => numbers.setIfInBounds place number)
      numbers).getD place 0 =
      if place ∈ places then start + places.idxOf place else numbers.getD place 0 := by
  induction places generalizing numbers start with
  | nil => rfl
  | cons first rest ih =>
    obtain ⟨new, others⟩ := List.nodup_cons.1 distinct
    obtain ⟨firstRoom, room⟩ := List.forall_mem_cons.1 room
    rw [List.zipIdx_cons, List.foldl_cons, ih others (by simpa using room)]
    by_cases same : place = first
    · -- Later entries are made elsewhere.
      subst same
      simp [new, firstRoom]
    · by_cases later : place ∈ rest
      · simp [later, same, List.idxOf_cons_ne, Ne.symm same]
        omega
      · simp [later, same, Ne.symm same]

namespace Automaton

/-- How many states stand before a state in ascending order. -/
def position (automaton : Automaton) (state : Nat) : Nat := automaton.states.idxOf state

/-- Whether a transition comes before another: by source, then by target, then by symbol. -/
def Transition.PairBefore (left right : Transition) : Prop :=
  left.source < right.source ∨ (left.source = right.source ∧
    (left.target < right.target ∨ (left.target = right.target ∧ left.symbol < right.symbol)))

/-- No transition comes before itself. -/
instance : Std.Irrefl Transition.PairBefore where
  irrefl step before := by
    unfold Transition.PairBefore at before
    omega

/-- No two transitions come before each other. -/
instance : Std.Antisymm Transition.PairBefore where
  antisymm left right before after := by
    unfold Transition.PairBefore at before after
    omega

variable {automaton : Automaton} {plain : PlainAutomaton}

/-- There are as many states as are counted. -/
theorem length_states (automaton : Automaton) : automaton.states.length = automaton.stateCount :=
  automaton.active.length_toList

/-- States are there once. -/
theorem nodup_states (automaton : Automaton) : automaton.states.Nodup :=
  automaton.active.pairwise_toList.nodup

/-- A state has a position below the number of states. -/
theorem position_lt {state : Nat} (member : state ∈ automaton.states) :
    automaton.position state < automaton.stateCount := by
  rw [← length_states]
  exact List.idxOf_lt_length_of_mem member

/-- The positions of the states are the numbers below their count, in order. -/
theorem map_position_states (automaton : Automaton) :
    automaton.states.map automaton.position = List.range automaton.stateCount := by
  -- The state listed at a place has this place as its position.
  refine List.ext_getElem (by simp [length_states]) fun place left right => ?_
  rw [List.getElem_map, List.getElem_range, position, automaton.nodup_states.idxOf_getElem]

/-- Positions follow the order of the states. -/
theorem position_strictMonoOn (automaton : Automaton) :
    StrictMonoOn automaton.position { state | state ∈ automaton.states } := by
  intro left leftIn right rightIn below
  -- A sorted list is in order with the positions in it.
  have ascending : automaton.states.SortedLT := automaton.active.pairwise_toList.sortedLT
  have before : (⟨left, leftIn⟩ : { state // state ∈ automaton.states }) < ⟨right, rightIn⟩ := below
  exact ascending.getIso.symm.lt_iff_lt.2 before

/-- The number of each state in a description is its position. -/
theorem getD_numbering {state : Nat} (member : state ∈ automaton.states) :
    automaton.numbering.getD state 0 = automaton.position state := by
  -- The table is filled in ascending order and each slot once, so the entry is the position.
  have room : ∀ state ∈ automaton.states,
      state < (Array.replicate automaton.maxStates 0).size := by
    intro other listed
    rw [Array.size_replicate]
    exact StateSet.lt_capacity_of_contains (StateSet.mem_toList.1 listed)
  rw [numbering, getD_foldl_setIfInBounds automaton.nodup_states room, if_pos member, Nat.zero_add]
  rfl

/-- The targets of a source are where some symbol leads. -/
theorem mem_targetsOf (shaped : automaton.Shaped) {source target : Nat} :
    target ∈ automaton.targetsOf source ↔
      ∃ symbol < automaton.alphabetSize, automaton.successors.contains source symbol target := by
  -- The union over all symbols' rows, each of the automaton's size.
  have size : ∀ symbol, (automaton.successors.row source symbol).words.size =
      (StateSet.ofCapacity automaton.maxStates).words.size := by
    intro symbol
    rw [TransitionMatrix.size_row, shaped.successors]
    exact Array.size_replicate.symm
  rw [targetsOf, StateSet.mem_toList, (StateSet.contains_foldl_union _ size).2]
  simp [TransitionMatrix.contains]

/-- The transitions listed by pairs are those of the plain automaton. -/
theorem Represents.mem_transitionsByPair (represents : automaton.Represents plain)
    (step : Transition) : step ∈ automaton.transitionsByPair ↔ step ∈ plain.transitions := by
  -- The targets of a source are found for all symbols together, and then the symbols of each.
  rw [transitionsByPair, List.mem_flatMap]
  constructor
  · intro listed
    obtain ⟨source, active, listed⟩ := listed
    obtain ⟨target, _, listed⟩ := List.mem_flatMap.1 listed
    obtain ⟨symbol, between, same⟩ := List.mem_map.1 listed
    subst same
    obtain ⟨inAlphabet, held⟩ := List.mem_filter.1 between
    have member := (represents.mem_states source).1 active
    have layer := represents.layers symbol (represents.alphabet ▸ List.mem_range.1 inAlphabet)
    exact (layer.successors source member target).1 held
  · intro member
    have source := plain.source_active step member
    have symbol := plain.symbol_lt step member
    have held := represents.contains_of_mem member
    rw [← represents.alphabet] at symbol
    refine ⟨step.source, (represents.mem_states _).2 source, ?_⟩
    refine List.mem_flatMap.2 ⟨step.target, ?_, ?_⟩
    · exact (mem_targetsOf represents.shaped).2 ⟨step.symbol, symbol, held⟩
    · have between : step.symbol ∈ automaton.symbolsBetween step.source step.target :=
        List.mem_filter.2 ⟨List.mem_range.2 symbol, held⟩
      exact List.mem_map.2 ⟨step.symbol, between, rfl⟩

/-- Transitions listed by pairs are in strict order. -/
theorem pairwise_transitionsByPair (automaton : Automaton) :
    automaton.transitionsByPair.Pairwise Transition.PairBefore := by
  -- Sources, targets and symbols are each listed in ascending order.
  refine pairwise_flatMap_flatMap automaton.active.pairwise_toList
    (fun source => StateSet.pairwise_toList _)
    (fun source target => List.pairwise_lt_range.filter _) ?_ ?_ ?_
  · exact fun low high target symbol other another below => .inl below
  · exact fun source low high symbol another below => .inr ⟨rfl, .inl below⟩
  · exact fun source target low high below => .inr ⟨rfl, .inr ⟨rfl, below⟩⟩

/-- A description has the positions of the states in place of the states. -/
theorem Represents.toModel_eq (represents : automaton.Represents plain) :
    automaton.toModel =
      { alphabetSize := automaton.alphabetSize
        stateCount := automaton.stateCount
        initial := automaton.initialStates.map automaton.position
        finals := automaton.finalStates.map automaton.position
        transitions := automaton.transitionsByPair.map (·.rename automaton.position) } := by
  -- Flags and transitions are looked up for states only.
  have number : ∀ state ∈ plain.active,
      automaton.numbering.getD state 0 = automaton.position state := fun state member =>
    getD_numbering ((represents.mem_states state).2 member)
  rw [toModel, Model.mk.injEq]
  refine ⟨rfl, rfl, List.map_congr_left fun state flagged => ?_,
    List.map_congr_left fun state flagged => ?_, List.map_congr_left fun step joined => ?_⟩
  · exact number state (plain.initial_subset ((represents.mem_initialStates state).1 flagged))
  · exact number state (plain.finals_subset ((represents.mem_finalStates state).1 flagged))
  · have ends := plain.ends_active ((represents.mem_transitionsByPair step).1 joined)
    dsimp only
    rw [number _ ends.1, number _ ends.2]
    rfl

end Automaton

end NfaInduction
