import NfaInduction.Proofs.Automaton.Represents

/-! Activating a state, with growth where there is no room for it, adds that state and nothing else. -/

namespace NfaInduction

namespace Automaton

variable {automaton : Automaton} {plain : PlainAutomaton}

/-- A set that grows to a larger capacity in whole blocks has exactly that capacity. -/
theorem capacity_grow {set : StateSet} {capacity : Nat} (room : set.capacity ≤ capacity)
    (reached : Capacity.Reached capacity) : (set.grow capacity).capacity = capacity := by
  -- Whole blocks are whole words.
  rw [StateSet.grow, Nat.max_eq_right room, StateSet.capacity, StateSet.size_resize,
    reached.countFor_mul]

/-- Growth resizes all sets and matrices to one capacity, which is doubled until the state has room. -/
theorem growFor_eq_ok {state : Nat} {grown : Automaton} (reached : Capacity.Reached automaton.maxStates)
    (success : automaton.growFor state = .ok grown) :
    ∃ capacity, (state < Capacity.maxStates ∧ capacity = Capacity.doubled automaton.maxStates state) ∧
      Capacity.Reached capacity ∧ automaton.maxStates ≤ capacity ∧ state < capacity ∧
      automaton.predecessors.reflow capacity automaton.active = .ok grown.predecessors ∧
      automaton.successors.reflow capacity automaton.active = .ok grown.successors ∧
      grown.active = automaton.active.grow capacity ∧
      grown.initial = automaton.initial.grow capacity ∧
      grown.finals = automaton.finals.grow capacity := by
  -- The doubled capacity is aligned already.
  rw [growFor] at success
  split at success
  · rename_i admitted
    obtain ⟨doubled, larger, fits⟩ := reached.doubled admitted
    rw [doubled.aligned] at success
    simp only [Bind.bind, Except.bind] at success
    split at success
    · cases success
    rename_i predecessors predecessorsMoved
    split at success
    · cases success
    rename_i successors successorsMoved
    cases success
    exact ⟨_, ⟨admitted, rfl⟩, doubled, larger, fits, predecessorsMoved, successorsMoved, rfl, rfl, rfl⟩
  · cases success

/-- Growth fails only for a state that has no slot or that calls for too large a matrix. -/
theorem growFor_eq_error {state : Nat} {fault : Fault}
    (reached : Capacity.Reached automaton.maxStates)
    (alphabet : automaton.predecessors.alphabetSize = automaton.alphabetSize)
    (failure : automaton.growFor state = .error fault) :
    (Capacity.maxStates ≤ state ∧ fault = .stateOutOfRange state Capacity.maxStates) ∨
      state < Capacity.maxStates ∧
        Capacity.tableWords automaton.alphabetSize (Capacity.doubled automaton.maxStates state) = none ∧
        fault = .matrixTooLarge (Capacity.doubled automaton.maxStates state) automaton.alphabetSize := by
  -- Both matrices have the same size, so that they are addressable together.
  rw [growFor] at failure
  split at failure
  · rename_i admitted
    obtain ⟨doubled, _, _⟩ := reached.doubled admitted
    rw [doubled.aligned] at failure
    generalize Capacity.doubled automaton.maxStates state = capacity at *
    cases words : Capacity.tableWords automaton.alphabetSize capacity with
    | none =>
      simp only [TransitionMatrix.reflow, alphabet, words, Bind.bind, Except.bind] at failure
      cases failure
      exact .inr ⟨admitted, rfl, rfl⟩
    | some count =>
      have both : Capacity.tableWords automaton.successors.alphabetSize capacity = some count := words
      simp [TransitionMatrix.reflow, alphabet, words, both, Bind.bind, Except.bind,
        Pure.pure, Except.pure] at failure
  · rename_i beyond
    cases failure
    exact .inl ⟨Nat.le_of_not_lt beyond, rfl⟩

/-- An automaton that cannot grow for a state has no room for it. -/
theorem outgrows_of_growFor {state : Nat} {fault : Fault}
    (reached : Capacity.Reached automaton.maxStates)
    (alphabet : automaton.predecessors.alphabetSize = automaton.alphabetSize)
    (failure : automaton.growFor state = .error fault) :
    Outgrows automaton.alphabetSize state fault := by
  rcases growFor_eq_error reached alphabet failure with ⟨beyond, rfl⟩ | ⟨admitted, words, rfl⟩
  · exact .limit beyond
  · exact .matrix (reached.doubled admitted).1.bounds.2 words

/-- An automaton grown for a state has room for it and represents what it did before. -/
theorem Represents.growFor (represents : automaton.Represents plain) {state : Nat}
    {grown : Automaton} (success : automaton.growFor state = .ok grown) :
    grown.Represents plain ∧ state < grown.maxStates := by
  -- Every part is resized to the one capacity that the doubling ends at.
  obtain ⟨capacity, _, reached, larger, fits, predecessors, successors, active, initial, finals⟩ :=
    growFor_eq_ok represents.shaped.reached success
  obtain ⟨predecessorSymbols, predecessorRoom, _⟩ := TransitionMatrix.shape_reflow predecessors
  obtain ⟨successorSymbols, successorRoom, _⟩ := TransitionMatrix.shape_reflow successors
  have shaped := represents.shaped
  -- The active set shows the room of the whole.
  have room : grown.maxStates = capacity := by
    rw [maxStates, active]
    exact capacity_grow larger reached
  refine ⟨?_, by rwa [room]⟩
  constructor
  case shaped =>
    constructor
    case reached => rwa [room]
    case initial =>
      rw [room, initial]
      exact capacity_grow (by rwa [shaped.initial]) reached
    case finals =>
      rw [room, finals]
      exact capacity_grow (by rwa [shaped.finals]) reached
    case predecessors => rw [room, predecessorRoom]
    case successors => rw [room, successorRoom]
    case alphabet => rw [predecessorSymbols, alphabetSize, successorSymbols, shaped.alphabet, alphabetSize]
  case alphabet => rw [alphabetSize, successorSymbols, ← represents.alphabet, alphabetSize]
  case active => simpa [active] using represents.active
  case initial => simpa [initial] using represents.initial
  case finals => simpa [finals] using represents.finals
  case layers =>
    -- The rows of active states are moved to their new places.
    intro symbol inAlphabet
    have layer := represents.layers symbol inAlphabet
    rw [← represents.alphabet] at inAlphabet
    constructor
    case successors =>
      intro source member target
      rw [TransitionMatrix.contains_reflow (by rwa [shaped.successors]) successors source inAlphabet,
        (represents.active source).2 member, Bool.true_and]
      exact layer.successors source member target
    case predecessors =>
      intro target member source
      rw [TransitionMatrix.contains_reflow (by rwa [shaped.predecessors]) predecessors target
        (by rwa [shaped.alphabet]), (represents.active target).2 member, Bool.true_and]
      exact layer.predecessors target member source

/-- A slot taken into use is a state without transitions, whatever its rows held before. -/
theorem Represents.occupy (represents : automaton.Represents plain) {state : Nat}
    (room : state < automaton.maxStates) :
    (automaton.occupy state).Represents (plain.addState state) := by
  -- Only a state that is not in use has its rows cleared before it is flagged.
  rw [Automaton.occupy]
  split
  · -- A state in use stays as it is.
    rename_i used
    rwa [PlainAutomaton.addState_of_mem ((represents.active state).1 used)]
  rename_i unused
  have shaped := represents.shaped
  have fresh : state ∉ plain.active := fun member => unused ((represents.active state).2 member)
  constructor
  case shaped =>
    have same : (automaton.active.insert state).capacity = automaton.maxStates := by
      rw [StateSet.capacity_insert, maxStates]
    constructor
    case reached => rw [maxStates, same]; exact shaped.reached
    case initial => rw [maxStates, same]; exact shaped.initial
    case finals => rw [maxStates, same]; exact shaped.finals
    case predecessors =>
      rw [maxStates, same, TransitionMatrix.capacity_clearState]; exact shaped.predecessors
    case successors =>
      rw [maxStates, same, TransitionMatrix.capacity_clearState]; exact shaped.successors
    case alphabet => simpa [alphabetSize] using shaped.alphabet
  case alphabet => simpa [alphabetSize] using represents.alphabet
  case active =>
    intro other
    rw [StateSet.contains_insert room]
    simp [PlainAutomaton.addState, represents.active, or_comm]
  case initial => exact represents.initial
  case finals => exact represents.finals
  -- The cleared rows are those of the new state, and no transition has an end there.
  case layers =>
    intro symbol inAlphabet
    have layer := represents.layers symbol inAlphabet
    rw [show (plain.addState state).alphabetSize = plain.alphabetSize from rfl,
      ← represents.alphabet] at inAlphabet
    constructor
    case successors =>
      intro source member target
      rw [TransitionMatrix.contains_clearState (by rwa [shaped.successors]) source inAlphabet]
      rcases Finset.mem_insert.1 member with rfl | old
      · -- No transition leaves a state that was not there.
        have none : ⟨source, target, symbol⟩ ∉ plain.transitions :=
          fun step => fresh (plain.source_active _ step)
        simpa [PlainAutomaton.addState] using none
      · have other : source ≠ state := fun same => fresh (same ▸ old)
        simpa [other] using layer.successors source old target
    case predecessors =>
      intro target member source
      rw [TransitionMatrix.contains_clearState (by rwa [shaped.predecessors]) target
        (by rwa [shaped.alphabet])]
      rcases Finset.mem_insert.1 member with rfl | old
      · -- No transition enters a state that was not there.
        have none : ⟨source, target, symbol⟩ ∉ plain.transitions :=
          fun step => fresh (plain.target_active _ step)
        simpa [PlainAutomaton.addState] using none
      · have other : target ≠ state := fun same => fresh (same ▸ old)
        simpa [other] using layer.predecessors target old source

/-- Activation adds the state, or nothing happens because there is no room for it. -/
theorem Represents.activate (represents : automaton.Represents plain) (state : Nat) :
    automaton.Occupies state (automaton.activate state) (plain.addState state) := by
  rw [Automaton.activate]
  by_cases room : state < automaton.maxStates
  · rw [if_pos room]
    exact .inl ⟨_, rfl, represents.occupy room⟩
  · -- Without room the automaton is grown first.
    rw [if_neg room]
    cases outcome : automaton.growFor state with
    | ok grown =>
      obtain ⟨same, fits⟩ := represents.growFor outcome
      exact .inl ⟨_, rfl, same.occupy fits⟩
    | error fault =>
      have cause := outgrows_of_growFor represents.shaped.reached represents.shaped.alphabet outcome
      exact .inr ⟨fault, rfl, represents.alphabet ▸ cause⟩

/-- A change made once a state is active is made, or there is no room for the state. -/
theorem Represents.andThen_activate (represents : automaton.Represents plain) {state : Nat}
    {change : Automaton → Automaton} {next : PlainAutomaton}
    (alphabet : next.alphabetSize = plain.alphabetSize)
    (changed : ∀ after : Automaton, after.Represents (plain.addState state) →
      (change after).Represents next) :
    automaton.Occupies state ((automaton.activate state).andThen (.done <| change ·)) next := by
  -- Only an activation that went through reaches the change; a refused one ends the edit.
  rcases represents.activate state with ⟨after, done, grown⟩ | ⟨fault, failed, cause⟩
  · rw [done]
    exact .inl ⟨_, rfl, changed after grown⟩
  · rw [failed]
    exact .inr ⟨fault, rfl, alphabet ▸ cause⟩

/-- Other flags on the same states and transitions are represented by other sets of flags. -/
theorem Represents.reflag (represents : automaton.Represents plain) {flagged : PlainAutomaton}
    {initial finals : StateSet} (alphabet : flagged.alphabetSize = plain.alphabetSize)
    (active : flagged.active = plain.active) (transitions : flagged.transitions = plain.transitions)
    (initialRoom : initial.capacity = automaton.maxStates)
    (finalsRoom : finals.capacity = automaton.maxStates)
    (initialHeld : ∀ state, initial.contains state ↔ state ∈ flagged.initial)
    (finalsHeld : ∀ state, finals.contains state ↔ state ∈ flagged.finals) :
    { automaton with initial := initial, finals := finals }.Represents flagged := by
  -- The rows are the same, and the room for flags is given.
  constructor
  case shaped => exact { represents.shaped with initial := initialRoom, finals := finalsRoom }
  case alphabet => exact represents.alphabet.trans alphabet.symm
  case active => rw [active]; exact represents.active
  case initial => exact initialHeld
  case finals => exact finalsHeld
  case layers =>
    intro symbol inAlphabet
    rw [alphabet] at inAlphabet
    obtain ⟨successors, predecessors⟩ := represents.layers symbol inAlphabet
    rw [active, transitions]
    exact ⟨successors, predecessors⟩

/-- A state may be flagged as initial. -/
theorem Represents.insertInitial (represents : automaton.Represents plain) {state : Nat}
    (member : state ∈ plain.active) :
    { automaton with initial := automaton.initial.insert state }.Represents
      (plain.setInitial state) := by
  -- The state is active, so the flag set has room for it and no bit is dropped.
  have room : state < automaton.initial.capacity := by
    rw [represents.shaped.initial]
    exact represents.lt_maxStates member
  refine represents.reflag rfl (Finset.insert_eq_of_mem member) rfl ?_ represents.shaped.finals ?_
    represents.finals
  · rw [StateSet.capacity_insert, represents.shaped.initial]
  · intro other
    simp [StateSet.contains_insert room, represents.initial, or_comm]

/-- A state may be flagged as final. -/
theorem Represents.insertFinal (represents : automaton.Represents plain) {state : Nat}
    (member : state ∈ plain.active) :
    { automaton with finals := automaton.finals.insert state }.Represents
      (plain.setFinal state) := by
  -- As for the initial flag: an active state fits the set.
  have room : state < automaton.finals.capacity := by
    rw [represents.shaped.finals]
    exact represents.lt_maxStates member
  refine represents.reflag rfl (Finset.insert_eq_of_mem member) rfl represents.shaped.initial ?_
    represents.initial ?_
  · rw [StateSet.capacity_insert, represents.shaped.finals]
  · intro other
    simp [StateSet.contains_insert room, represents.finals, or_comm]

end Automaton

end NfaInduction
