import NfaInduction.Proofs.Automaton.FreshPath
import NfaInduction.Proofs.Automaton.Room
import NfaInduction.Proofs.Except
import NfaInduction.Training.Session

/-! The path added for a sample makes the automaton accept this sample and nothing else besides. -/

namespace NfaInduction

namespace Training

open Automaton (Outgrown)

variable {automaton : Automaton} {plain : PlainAutomaton}

/-- A path continued from a tip by fresh states spells its word, unless there is no room for it. -/
theorem extendPath_gains (represents : automaton.Represents plain) {last : Nat}
    {word : List Symbol} (tip : plain.Tip last word) {sample : Sample}
    (within : sample.Within plain.alphabetSize) :
    (∃ grown steps after,
      extendPath automaton last sample = .ok ⟨grown, Automaton.visited last steps⟩ ∧
      grown.Represents after ∧ plain.Gains after (word ++ sample) (steps.map (·.target)) ∧
      plain.Continues after last sample steps) ∨
    ∃ fault, extendPath automaton last sample = .error fault ∧ Outgrown plain.alphabetSize fault := by
  -- The induction follows the sample, and the tip moves along with it.
  induction sample generalizing automaton plain last word with
  | nil =>
    rw [extendPath]
    rcases represents.setFinal last with ⟨flagged, done, result⟩ | ⟨fault, failed, outgrows⟩
    · rw [done, List.append_nil]
      exact .inl ⟨flagged, [], _, rfl, result, tip.gains_setFinal, plain.continues_setFinal last⟩
    · rw [failed]
      exact .inr ⟨fault, rfl, last, outgrows⟩
  | cons symbol rest hypothesis =>
    obtain ⟨inAlphabet, restWithin⟩ := within.of_cons
    have unused : automaton.inactiveState ∉ plain.active := represents.isLeast_inactiveState.1
    rw [extendPath]
    rcases represents.setTransition last automaton.inactiveState inAlphabet with
      ⟨joined, done, result⟩ | ⟨fault, failed, outgrows⟩ | ⟨_, fault, failed, _, outgrows⟩
    · -- The new state is the tip from which the rest of the sample is added.
      have next := tip.setTransition inAlphabet unused
      rcases hypothesis result next restWithin with
        ⟨grown, steps, after, extended, held, gains, continues⟩ | ⟨fault, failed, outgrown⟩
      · let step : Automaton.Transition := ⟨last, automaton.inactiveState, symbol.toNat⟩
        refine .inl ⟨grown, step :: steps, after, ?_, held, ?_, continues.cons inAlphabet⟩
        · rw [done]
          exact bind_of_ok extended
        · rw [List.append_assoc] at gains
          exact tip.gains_setTransition inAlphabet unused gains
      · refine .inr ⟨fault, ?_, outgrown⟩
        rw [done]
        exact (bind_of_ok rfl).trans (bind_of_error failed)
    · rw [failed]
      exact .inr ⟨fault, rfl, last, outgrows⟩
    · rw [failed]
      exact .inr ⟨fault, rfl, _, outgrows⟩

/-- A sample is added to the language by a path of fresh states, unless there is no room for it. -/
theorem coerce_spells (represents : automaton.Represents plain) {sample : Sample}
    (within : sample.Within plain.alphabetSize) :
    (∃ path after, coerce automaton sample = .ok path ∧ path.automaton.Represents after ∧
      plain.Spells after sample path.states) ∨
    ∃ fault, coerce automaton sample = .error fault ∧ Outgrown plain.alphabetSize fault := by
  have unused : automaton.inactiveState ∉ plain.active := represents.isLeast_inactiveState.1
  rw [coerce]
  rcases represents.setInitial automaton.inactiveState with
    ⟨started, done, result⟩ | ⟨fault, failed, outgrows⟩
  · rw [done]
    -- The fresh initial state is the tip from which the path goes on.
    rcases extendPath_gains result (PlainAutomaton.tip_setInitial unused) within with
      ⟨grown, steps, after, extended, held, gains, continues⟩ | ⟨fault, failed, outgrown⟩
    · exact .inl ⟨_, after, extended, held, PlainAutomaton.spells_setInitial unused gains continues⟩
    · exact .inr ⟨fault, failed, outgrown⟩
  · rw [failed]
    exact .inr ⟨fault, rfl, _, outgrows⟩

section Room

variable {states : Nat} (represents : automaton.Represents plain)
  (room : (Capacity.matrixBytes plain.alphabetSize states).isSome) {sample : Sample}
  (within : sample.Within plain.alphabetSize)
include represents room within

/-- A path can be continued from a state if a state for each symbol is admitted besides those there. -/
theorem extendPath_of_room {last : Nat} (lastIn : last ∈ plain.active)
    (few : plain.active.card + sample.length ≤ states) :
    ∃ path, extendPath automaton last sample = .ok path := by
  induction sample generalizing automaton plain last with
  | nil =>
    obtain ⟨flagged, done, _⟩ := represents.setFinal_of_mem lastIn
    rw [extendPath, done]
    exact ⟨_, rfl⟩
  | cons symbol rest ih =>
    obtain ⟨inAlphabet, restWithin⟩ := within.of_cons
    rw [List.length_cons] at few
    -- The lowest free slot lies below the number of states, of which one more is admitted.
    have lowest := represents.inactiveState_le_card
    have below : automaton.inactiveState < states := by omega
    obtain ⟨joined, done, result⟩ := represents.setTransition_of_room room below lastIn inAlphabet
    have added : (plain.setTransition last automaton.inactiveState symbol.toNat
        inAlphabet).active.card ≤ plain.active.card + 1 := by
      rw [PlainAutomaton.setTransition_active, PlainAutomaton.addState_active,
        PlainAutomaton.addState_active, Finset.insert_eq_of_mem lastIn]
      exact Finset.card_insert_le _ _
    obtain ⟨path, extended⟩ :=
      ih result room restWithin (Finset.mem_insert_self _ _) (by omega)
    rw [extendPath, done]
    exact ⟨_, bind_of_ok extended⟩

/-- A path can be added for a sample if all its states are admitted besides those there. -/
theorem coerce_of_room (few : plain.active.card + (sample.length + 1) ≤ states) :
    ∃ path, coerce automaton sample = .ok path := by
  have lowest := represents.inactiveState_le_card
  have below : automaton.inactiveState < states := by omega
  obtain ⟨started, done, result⟩ := represents.setInitial_of_room room below
  -- One state is taken by the start of the path, and there is one for each symbol behind it.
  have added : (plain.setInitial automaton.inactiveState).active.card ≤ plain.active.card + 1 :=
    Finset.card_insert_le _ _
  obtain ⟨path, extended⟩ := extendPath_of_room result room within (Finset.mem_insert_self _ _)
    (by omega)
  rw [coerce, done]
  exact ⟨path, extended⟩

end Room

end Training

end NfaInduction
