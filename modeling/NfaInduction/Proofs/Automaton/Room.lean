import NfaInduction.Proofs.Automaton.Authoring
import NfaInduction.Proofs.Automaton.Reports

/-! An automaton that may have some number of states has room for each of them. -/

namespace NfaInduction

namespace Edit

/-- A change that cannot fail adds no fault to those of the call before it. -/
theorem fault_andThen_done (edit : Edit) (change : Automaton → Automaton) :
    (edit.andThen (.done <| change ·)).fault = edit.fault := by
  obtain ⟨automaton, fault⟩ := edit
  cases fault with
  | none => rfl
  | some fault => rfl

end Edit

namespace Automaton

variable {automaton : Automaton} {plain : PlainAutomaton} {states state : Nat}

/-- A call that needs a slot and ends without a fault has led to the next plain automaton. -/
theorem Occupies.done {edit : Edit} {next : PlainAutomaton}
    (occupies : automaton.Occupies state edit next) (quiet : edit.fault = none) :
    ∃ after, edit = .done after ∧ after.Represents next := by
  rcases occupies with done | ⟨fault, failed, _⟩
  · exact done
  · rw [failed] at quiet
    cases quiet

/-- Activating a state that is active already changes nothing. -/
theorem Represents.activate_of_mem (represents : automaton.Represents plain)
    (member : state ∈ plain.active) : automaton.activate state = .done automaton := by
  have used : automaton.isActive state := (represents.active state).2 member
  rw [Automaton.activate, if_pos (represents.lt_maxStates member), Automaton.occupy, if_pos used]

/-- Slots in use come first as long as a lower one is free, so there are as many states below it. -/
theorem Represents.inactiveState_le_card (represents : automaton.Represents plain) :
    automaton.inactiveState ≤ plain.active.card := by
  have least := represents.isLeast_inactiveState
  -- Every slot below the lowest free one is in use.
  have used : Finset.range automaton.inactiveState ⊆ plain.active := by
    intro slot below
    by_contra free
    have := least.2 free
    rw [Finset.mem_range] at below
    omega
  simpa using Finset.card_le_card used

section Room

variable (represents : automaton.Represents plain)
  (room : (Capacity.matrixBytes plain.alphabetSize states).isSome) (below : state < states)
include represents room below

/-- A state below an admitted number of states can be activated. -/
theorem Represents.activate_of_room : (automaton.activate state).fault = none := by
  rw [Automaton.activate]
  by_cases fits : state < automaton.maxStates
  · rw [if_pos fits]
    rfl
  · rw [if_neg fits]
    cases outcome : automaton.growFor state with
    | ok grown => rfl
    | error fault =>
      -- The automaton would not grow beyond the capacity that all of the states call for.
      obtain ⟨admitted, words⟩ := Capacity.isSome_tableWords_grown room
      have shaped := represents.shaped
      have smaller := shaped.reached.doubled_le_grown (Nat.le_of_not_lt fits) below
      have counted := Capacity.isSome_tableWords_of_le smaller words
      rcases growFor_eq_error shaped.reached shaped.alphabet outcome with
        ⟨beyond, _⟩ | ⟨_, excessive, _⟩
      · omega
      · rw [represents.alphabet] at excessive
        rw [excessive] at counted
        cases counted

/-- A state below an admitted number of states can be made initial. -/
theorem Represents.setInitial_of_room : ∃ after, automaton.setInitial state = .done after ∧
    after.Represents (plain.setInitial state) := by
  refine (represents.setInitial state).done ?_
  rw [Automaton.setInitial, Edit.fault_andThen_done]
  exact represents.activate_of_room room below

/-- A state below an admitted number of states can be joined to a state that is there. -/
theorem Represents.setTransition_of_room {source : Nat} (sourceIn : source ∈ plain.active)
    {symbol : Symbol} (inAlphabet : symbol.toNat < plain.alphabetSize) :
    ∃ after, automaton.setTransition source state symbol = .done after ∧
      after.Represents (plain.setTransition source state symbol.toNat inAlphabet) := by
  have accepted : symbol.toNat < automaton.alphabetSize := by rwa [represents.alphabet]
  have quiet : (automaton.setTransition source state symbol).fault = none := by
    rw [Automaton.setTransition, Automaton.symbolIndex, if_pos accepted]
    simp only [Edit.fault_andThen_done]
    -- Only the state that is joined may call for room.
    rw [represents.activate_of_mem sourceIn]
    exact represents.activate_of_room room below
  rcases represents.setTransition source state inAlphabet with
    done | ⟨fault, failed, _⟩ | ⟨after, fault, failed, _⟩
  · exact done
  · rw [failed] at quiet
    cases quiet
  · rw [failed] at quiet
    cases quiet

end Room

/-- A state that is there can be made final. -/
theorem Represents.setFinal_of_mem (represents : automaton.Represents plain)
    (member : state ∈ plain.active) : ∃ after, automaton.setFinal state = .done after ∧
      after.Represents (plain.setFinal state) := by
  refine (represents.setFinal state).done ?_
  rw [Automaton.setFinal, Edit.fault_andThen_done, represents.activate_of_mem member]
  rfl

end Automaton

end NfaInduction
