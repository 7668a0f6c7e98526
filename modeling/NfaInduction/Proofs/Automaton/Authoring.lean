import NfaInduction.Proofs.Automaton.Activate

/-! Each authoring call adds what it names to the plain automaton, or fails for want of room. -/

namespace NfaInduction

namespace PlainAutomaton

/-- Adding a transition that is there already changes nothing. -/
theorem setTransition_of_mem {plain : PlainAutomaton} {source target symbol : Nat}
    (inAlphabet : symbol < plain.alphabetSize)
    (member : ⟨source, target, symbol⟩ ∈ plain.transitions) :
    plain.setTransition source target symbol inAlphabet = plain := by
  -- The states that it joins are there as well.
  have sources := plain.source_active _ member
  have targets := plain.target_active _ member
  ext1
  case active => simp [Finset.insert_eq_of_mem sources, Finset.insert_eq_of_mem targets]
  case transitions => exact Finset.insert_eq_of_mem member
  all_goals rfl

/-- A transition brings both its states, so they need not be added before it. -/
theorem setTransition_addState {plain : PlainAutomaton} {source target symbol : Nat}
    (inAlphabet : symbol < plain.alphabetSize) :
    ((plain.addState source).addState target).setTransition source target symbol
      (by simpa using inAlphabet) = plain.setTransition source target symbol inAlphabet := by
  -- A state that is added twice is there once.
  ext1
  case active => simp
  all_goals rfl

end PlainAutomaton

namespace Automaton

variable {automaton : Automaton} {plain : PlainAutomaton}

/-- Joining two states records the transition in both directions. -/
theorem Represents.link (represents : automaton.Represents plain) {source target symbol : Nat}
    (sourceActive : source ∈ plain.active) (targetActive : target ∈ plain.active)
    (inAlphabet : symbol < plain.alphabetSize) :
    (automaton.link source target symbol).Represents
      (plain.setTransition source target symbol inAlphabet) := by
  -- Both ends have room, so that the bits are set and not dropped.
  have shaped := represents.shaped
  have sourceRoom := represents.lt_maxStates sourceActive
  have targetRoom := represents.lt_maxStates targetActive
  have layer := represents.layers symbol inAlphabet
  rw [Automaton.link]
  split
  · -- One direction shows whether the transition is there in both.
    rename_i present
    rwa [PlainAutomaton.setTransition_of_mem inAlphabet
      ((layer.successors source sourceActive target).1 present)]
  have symbols := represents.alphabet
  have sameStates : (plain.setTransition source target symbol inAlphabet).active = plain.active := by
    simp [Finset.insert_eq_of_mem sourceActive, Finset.insert_eq_of_mem targetActive]
  constructor
  case shaped => exact { shaped with }
  case alphabet => exact represents.alphabet
  case active => rw [sameStates]; exact represents.active
  case initial => exact represents.initial
  case finals => exact represents.finals
  -- In each direction one bit is added, which stands for the same transition.
  case layers =>
    intro other otherInAlphabet
    have before := represents.layers other otherInAlphabet
    have known : symbol < automaton.alphabetSize := symbols.symm ▸ inAlphabet
    have otherKnown : other < automaton.alphabetSize := by
      rw [symbols]
      exact otherInAlphabet
    rw [sameStates]
    constructor
    case successors =>
      intro start member last
      rw [TransitionMatrix.contains_insert (by rwa [shaped.successors]) known
        (by rwa [shaped.successors]) start otherKnown]
      have held := before.successors start member last
      rw [Bool.or_eq_true, held, decide_eq_true_eq, PlainAutomaton.setTransition_transitions,
        Finset.mem_insert, Transition.mk.injEq, or_comm, and_comm (a := other = symbol)]
    case predecessors =>
      intro last member start
      rw [TransitionMatrix.contains_insert (by rwa [shaped.predecessors]) (by rwa [shaped.alphabet])
        (by rwa [shaped.predecessors]) last (by rwa [shaped.alphabet])]
      have held := before.predecessors last member start
      rw [Bool.or_eq_true, held, decide_eq_true_eq, PlainAutomaton.setTransition_transitions,
        Finset.mem_insert, Transition.mk.injEq, or_comm, ← and_assoc, and_comm]

/-- A state is flagged as initial, or nothing happens because there is no room for it. -/
theorem Represents.setInitial (represents : automaton.Represents plain) (state : Nat) :
    automaton.Occupies state (automaton.setInitial state) (plain.setInitial state) := by
  -- The flag is set on a state that is active by then.
  refine represents.andThen_activate rfl fun after grown => ?_
  have flagged := grown.insertInitial (Finset.mem_insert_self state plain.active)
  simpa [PlainAutomaton.setInitial, PlainAutomaton.addState] using flagged

/-- A state is flagged as final, or nothing happens because there is no room for it. -/
theorem Represents.setFinal (represents : automaton.Represents plain) (state : Nat) :
    automaton.Occupies state (automaton.setFinal state) (plain.setFinal state) := by
  -- The flag is set on a state that is active by then.
  refine represents.andThen_activate rfl fun after grown => ?_
  have flagged := grown.insertFinal (Finset.mem_insert_self state plain.active)
  simpa [PlainAutomaton.setFinal, PlainAutomaton.addState] using flagged

/-- A transition with a symbol outside the alphabet is refused before anything is activated. -/
theorem Represents.setTransition_of_le (represents : automaton.Represents plain)
    (source target : Nat) {symbol : Symbol} (outside : plain.alphabetSize ≤ symbol.toNat) :
    automaton.setTransition source target symbol =
      ⟨automaton, some (.symbolOutOfRange symbol plain.alphabetSize)⟩ := by
  have refused : ¬symbol.toNat < automaton.alphabetSize := by
    rw [represents.alphabet]
    omega
  rw [Automaton.setTransition, symbolIndex, if_neg refused, represents.alphabet]

/-- A transition is added with both its states, or one of these has no room. -/
theorem Represents.setTransition (represents : automaton.Represents plain)
    (source target : Nat) {symbol : Symbol} (inAlphabet : symbol.toNat < plain.alphabetSize) :
    (∃ after, automaton.setTransition source target symbol = .done after ∧
      after.Represents (plain.setTransition source target symbol.toNat inAlphabet)) ∨
    (∃ fault, automaton.setTransition source target symbol = ⟨automaton, some fault⟩ ∧
      Outgrows plain.alphabetSize source fault) ∨
    ∃ after fault, automaton.setTransition source target symbol = ⟨after, some fault⟩ ∧
      after.Represents (plain.addState source) ∧ Outgrows plain.alphabetSize target fault := by
  have accepted : symbol.toNat < automaton.alphabetSize := by rwa [represents.alphabet]
  rw [Automaton.setTransition, symbolIndex, if_pos accepted]
  rcases represents.activate source with ⟨first, firstDone, grown⟩ | ⟨fault, failed, cause⟩
  · rw [firstDone]
    rcases grown.activate target with ⟨second, secondDone, both⟩ | ⟨fault, failed, cause⟩
    · -- Both states are active when they are joined.
      have joined := both.link (Finset.mem_insert_of_mem (Finset.mem_insert_self source plain.active))
        (Finset.mem_insert_self target _) (by simpa using inAlphabet)
      refine .inl ⟨second.link source target symbol.toNat, ?_, ?_⟩
      · simp only [Edit.done, Edit.andThen] at secondDone ⊢
        rw [secondDone]
      · rwa [PlainAutomaton.setTransition_addState] at joined
    · refine .inr (.inr ⟨first, fault, ?_, grown, cause⟩)
      simp only [Edit.done, Edit.andThen]
      rw [failed]
  · rw [failed]
    exact .inr (.inl ⟨fault, rfl, cause⟩)

end Automaton

end NfaInduction
