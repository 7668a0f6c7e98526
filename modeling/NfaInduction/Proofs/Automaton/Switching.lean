import NfaInduction.Proofs.Automaton.Coherence
import NfaInduction.Proofs.Automaton.Match

/-! A merge adds the words that are read by switching between its two states at any time. -/

namespace NfaInduction

namespace Automaton

/-- A run that may change between two states at any time without reading a symbol. -/
inductive SwitchingRun (automaton : Automaton) (left right : Nat) :
    Nat → List Symbol → Nat → Prop where
  /-- Nothing is read where a run starts. -/
  | stay (state : Nat) : SwitchingRun automaton left right state [] state
  /-- The first symbol is read on the first step. -/
  | step {source middle target : Nat} {symbol : Symbol} {rest : List Symbol}
      (first : automaton.hasTransition source middle symbol = .ok true)
      (later : SwitchingRun automaton left right middle rest target) :
      SwitchingRun automaton left right source (symbol :: rest) target
  /-- The run changes from the one state to the other. -/
  | forth {target : Nat} {word : List Symbol}
      (later : SwitchingRun automaton left right right word target) :
      SwitchingRun automaton left right left word target
  /-- The run changes from the other state to the one. -/
  | back {target : Nat} {word : List Symbol}
      (later : SwitchingRun automaton left right left word target) :
      SwitchingRun automaton left right right word target

/-- A word is accepted with switching if such a run reads it from an initial to a final state. -/
def AcceptsSwitching (automaton : Automaton) (left right : Nat) (word : List Symbol) : Prop :=
  ∃ start last, automaton.isInitial start ∧ automaton.isFinal last ∧
    automaton.SwitchingRun left right start word last

variable {automaton : Automaton} {plain : PlainAutomaton} {kept absorbed : Nat}

/-- States that get one name in a merge can stand for each other at the start of a run. -/
theorem SwitchingRun.of_standIn_eq {state other target : Nat} {word : List Symbol}
    (run : automaton.SwitchingRun kept absorbed other word target)
    (same : PlainAutomaton.standIn kept absorbed state = PlainAutomaton.standIn kept absorbed other) :
    automaton.SwitchingRun kept absorbed state word target := by
  -- Only the absorbed state changes its name, so the states are equal or the run may switch.
  unfold PlainAutomaton.standIn at same
  split at same
  · rename_i absorbs
    subst absorbs
    split at same
    · rename_i otherAbsorbed
      subst otherAbsorbed
      exact run
    · subst same
      exact .back run
  · split at same
    · rename_i otherAbsorbed
      subst same otherAbsorbed
      exact .forth run
    · rwa [same]

/-- A run with switching is a run of the merged automaton, where switching goes nowhere. -/
theorem SwitchingRun.merge (represents : automaton.Represents plain) {source target : Nat}
    {word : List Symbol} (run : automaton.SwitchingRun kept absorbed source word target) :
    (plain.merge kept absorbed).Run (PlainAutomaton.standIn kept absorbed source) word
      (PlainAutomaton.standIn kept absorbed target) := by
  -- Both states have one name after the merge, so that a switch leaves the run where it is.
  have names : PlainAutomaton.standIn kept absorbed kept =
      PlainAutomaton.standIn kept absorbed absorbed := by
    simp [PlainAutomaton.standIn]
  induction run with
  | stay state => exact .stay _
  | step first _ ih =>
    have step := represents.hasTransition_eq_true.1 first
    exact .step (mem_transitions_merge.2 ⟨_, _, step, rfl, rfl⟩) ih
  | forth _ ih => rwa [names]
  | back _ ih => rwa [← names]

/-- A run of the merged automaton comes apart into runs of the old one, with switches in between. -/
theorem Represents.switchingRun (represents : automaton.Represents plain) {first last : Nat}
    {word : List Symbol} (run : (plain.merge kept absorbed).Run first word last) {source target : Nat}
    (start : PlainAutomaton.standIn kept absorbed source = first)
    (finish : PlainAutomaton.standIn kept absorbed target = last) :
    automaton.SwitchingRun kept absorbed source word target := by
  -- The start is generalized, for each step of the merged automaton may start from another old state.
  induction run generalizing source with
  | stay state => exact (SwitchingRun.stay target).of_standIn_eq (start.trans finish.symm)
  | step taken _ ih =>
    obtain ⟨old, middle, member, oldName, middleName⟩ := mem_transitions_merge.1 taken
    have rest := ih middleName finish
    have step := represents.hasTransition_eq_true.2 member
    exact (SwitchingRun.step step rest).of_standIn_eq (start.trans oldName.symm)

/-- The merged automaton accepts exactly what the old one accepts with switching. -/
theorem Represents.accepts_merge (represents : automaton.Represents plain) {word : List Symbol} :
    (plain.merge kept absorbed).Accepts word ↔ automaton.AcceptsSwitching kept absorbed word := by
  constructor
  · intro accepts
    obtain ⟨first, initial, last, final, run⟩ := accepts
    -- The names at both ends are those of old states that carry the flags.
    obtain ⟨start, flagged, startName⟩ := Finset.mem_image.1 initial
    obtain ⟨finish, ending, finishName⟩ := Finset.mem_image.1 final
    exact ⟨start, finish, (represents.initial start).2 flagged, (represents.finals finish).2 ending,
      represents.switchingRun run startName finishName⟩
  · intro accepts
    obtain ⟨start, last, initial, final, run⟩ := accepts
    exact ⟨_, Finset.mem_image_of_mem _ ((represents.initial start).1 initial), _,
      Finset.mem_image_of_mem _ ((represents.finals last).1 final), run.merge represents⟩

/-- After a merge exactly the words are accepted that switching reads, and no word is lost. -/
theorem isMatch_merge (reachable : automaton.Reachable) (keptActive : automaton.isActive kept)
    (absorbedActive : automaton.isActive absorbed) (distinct : kept ≠ absorbed) :
    ∃ merged, automaton.merge kept absorbed = .done merged ∧
      ∀ word, Sample.Within automaton.alphabetSize word →
        ∃ verdict, merged.isMatch word = .ok verdict ∧
          (verdict = true ↔ automaton.AcceptsSwitching kept absorbed word) ∧
          (automaton.isMatch word = .ok true → verdict = true) := by
  classical
  obtain ⟨plain, represents⟩ := reachable.exists_represents
  obtain ⟨merged, done, after⟩ := represents.merge_eq_done ((represents.active kept).1 keptActive)
    ((represents.active absorbed).1 absorbedActive) distinct
  refine ⟨merged, done, fun word within => ?_⟩
  rw [represents.alphabet] at within
  refine ⟨_, after.isMatch within, ?_, fun accepted => ?_⟩
  · rw [decide_eq_true_iff]
    exact represents.accepts_merge
  · -- A run without switches is renamed like the states.
    have accepts := (represents.isMatch_eq_true within).1 accepted
    exact decide_eq_true (accepts.merge kept absorbed)

/-- Two ways of one step each, from an initial state and to a final state. -/
def severedRun : List Shelf.Call := [
  .create 0 (.alphabet 2), .act 0 (.setInitial 0), .act 0 (.setTransition 0 1 0),
  .act 0 (.setTransition 2 3 1), .act 0 (.setFinal 3)]

/-- The word that needs both ways is rejected, and accepted once the states between them are merged. -/
theorem isMatch_merge_severed : ∃ automaton : Automaton, automaton.Reachable ∧
    automaton.isActive 1 ∧ automaton.isActive 2 ∧ 1 ≠ 2 ∧ automaton.isMatch [0, 1] = .ok false ∧
    ∃ merged, automaton.merge 1 2 = .done merged ∧ merged.isMatch [0, 1] = .ok true := by
  have present : ((Shelf.run Automaton severedRun).1 0).isSome := rfl
  obtain ⟨automaton, held⟩ := Option.isSome_iff_exists.1 present
  have evaluated : ∀ automaton ∈ (Shelf.run Automaton severedRun).1 0,
      automaton.isActive 1 ∧ automaton.isActive 2 ∧ automaton.isMatch [0, 1] = .ok false ∧
      automaton.alphabetSize = 2 ∧ automaton.isInitial 0 ∧ automaton.isFinal 3 ∧
      automaton.hasTransition 0 1 0 = .ok true ∧ automaton.hasTransition 2 3 1 = .ok true := by
    decide +kernel
  obtain ⟨one, two, rejected, alphabet, initial, final, first, second⟩ := evaluated automaton held
  obtain ⟨merged, done, matched⟩ := isMatch_merge ⟨severedRun, 0, held⟩ one two (by decide)
  have within : Sample.Within automaton.alphabetSize [0, 1] := by
    simp [Sample.Within, alphabet]
  obtain ⟨verdict, same, switching, _⟩ := matched [0, 1] within
  -- The run switches between its two steps.
  have accepted : automaton.AcceptsSwitching 1 2 [0, 1] :=
    ⟨0, 3, initial, final, .step first (.forth (.step second (.stay 3)))⟩
  refine ⟨automaton, ⟨severedRun, 0, held⟩, one, two, by decide, rejected, merged, done, ?_⟩
  rw [same, switching.2 accepted]

end Automaton

end NfaInduction
