import NfaInduction.Proofs.Automaton.Shelf

/-! Whatever calls an automaton has seen, its two directions agree and unused slots take no part. -/

namespace NfaInduction

namespace Automaton

variable {automaton : Automaton} {plain : PlainAutomaton}

/-- Both directions hold the same steps between states, and slots out of use are never seen. -/
structure Coherent (automaton : Automaton) : Prop where
  /-- A state is a successor of another exactly if that one is among its predecessors. -/
  mirrored : ∀ source target (symbol : Symbol), automaton.isActive source →
    automaton.isActive target → symbol.toNat < automaton.alphabetSize →
    ∃ targets sources, automaton.successorsOf source symbol = .ok targets ∧
      automaton.predecessorsOf target symbol = .ok sources ∧ (target ∈ targets ↔ source ∈ sources)
  /-- Successors are states. -/
  successors_active : ∀ source (symbol : Symbol) targets,
    automaton.successorsOf source symbol = .ok targets → ∀ target ∈ targets, automaton.isActive target
  /-- Predecessors are states. -/
  predecessors_active : ∀ target (symbol : Symbol) sources,
    automaton.predecessorsOf target symbol = .ok sources → ∀ source ∈ sources, automaton.isActive source
  /-- A slot taken into use, with a flag or without, has neither successors nor predecessors. -/
  reused_clean : ∀ slot, ¬automaton.isActive slot →
    ∀ call ∈ [Call.addState slot, Call.setInitial slot, Call.setFinal slot],
    ∀ after, automaton.call call = .done after →
    ∀ symbol : Symbol, symbol.toNat < automaton.alphabetSize →
      after.successorsOf slot symbol = .ok [] ∧ after.predecessorsOf slot symbol = .ok []
  /-- A slot taken into use for a transition has that transition only. -/
  linked_clean : ∀ slot, ¬automaton.isActive slot → ∀ source target (symbol : Symbol) after,
    automaton.setTransition source target symbol = .done after →
    ∀ step ∈ after.transitions, step.source = slot ∨ step.target = slot →
      step = ⟨source, target, symbol.toNat⟩
  /-- Only states are initial. -/
  initial_active : ∀ state, automaton.isInitial state → automaton.isActive state
  /-- Only states are final. -/
  finals_active : ∀ state, automaton.isFinal state → automaton.isActive state
  /-- The check that automata have of themselves succeeds. -/
  consistent : automaton.isConsistent

/-- The rows of a state name states, and each of these names it back. -/
theorem Represents.rowsAgree (represents : automaton.Represents plain) {state : Nat}
    (member : state ∈ plain.active) : automaton.rowsAgree state := by
  -- Both rows hold transitions of the plain automaton, whose ends are states.
  rw [Automaton.rowsAgree, List.all_eq_true]
  intro symbol inAlphabet
  have layer := represents.layers symbol (represents.alphabet ▸ List.mem_range.1 inAlphabet)
  rw [Bool.and_eq_true, List.all_eq_true, List.all_eq_true]
  constructor
  · intro target listed
    have step := (layer.successors state member target).1 (StateSet.mem_toList.1 listed)
    have active := plain.target_active _ step
    rw [Bool.and_eq_true]
    exact ⟨(represents.active target).2 active, (layer.predecessors target active state).2 step⟩
  · intro source listed
    have step := (layer.predecessors state member source).1 (StateSet.mem_toList.1 listed)
    have active := plain.source_active _ step
    rw [Bool.and_eq_true]
    exact ⟨(represents.active source).2 active, (layer.successors source active state).2 step⟩

/-- An automaton that represents a plain one passes its own check. -/
theorem Represents.isConsistent (represents : automaton.Represents plain) :
    automaton.isConsistent := by
  -- Flags and rows are checked one after the other.
  rw [Automaton.isConsistent, Bool.and_eq_true, Bool.and_eq_true, List.all_eq_true,
    List.all_eq_true, List.all_eq_true]
  refine ⟨⟨fun state listed => ?_, fun state listed => ?_⟩, fun state listed => ?_⟩
  · have flagged := (represents.mem_initialStates state).1 listed
    exact (represents.active state).2 (plain.initial_subset flagged)
  · have flagged := (represents.mem_finalStates state).1 listed
    exact (represents.active state).2 (plain.finals_subset flagged)
  · exact represents.rowsAgree ((represents.mem_states state).1 listed)

/-- No transition starts or ends where there was no state. -/
theorem targets_eq_empty {state : Nat} (fresh : state ∉ plain.active) (symbol : Nat) :
    plain.targets state symbol = ∅ ∧ plain.sources state symbol = ∅ := by
  -- A transition's ends are active, so an unused state has none on either side.
  constructor
  · refine Finset.eq_empty_of_forall_notMem fun target member => fresh ?_
    exact plain.source_active _ (PlainAutomaton.mem_targets.1 member)
  · refine Finset.eq_empty_of_forall_notMem fun source member => fresh ?_
    exact plain.target_active _ (PlainAutomaton.mem_sources.1 member)

/-- A new state has no rows unless transitions were added with it. -/
theorem Represents.rows_eq_nil {after : Automaton} {next : PlainAutomaton}
    (represents : after.Represents next) {slot : Nat} (fresh : slot ∉ plain.active)
    (member : slot ∈ next.active) (same : next.transitions = plain.transitions) {symbol : Symbol}
    (inAlphabet : symbol.toNat < next.alphabetSize) :
    after.successorsOf slot symbol = .ok [] ∧ after.predecessorsOf slot symbol = .ok [] := by
  -- No transition was at the slot, and none was added.
  obtain ⟨noTargets, noSources⟩ := targets_eq_empty fresh symbol.toNat
  rw [PlainAutomaton.targets, ← same, ← PlainAutomaton.targets] at noTargets
  rw [PlainAutomaton.sources, ← same, ← PlainAutomaton.sources] at noSources
  rw [represents.reports.successorsOf, represents.reports.predecessorsOf,
    if_neg (not_not_intro member), if_neg (not_not_intro member), if_pos inAlphabet,
    if_pos inAlphabet, noTargets, noSources]
  simp

/-- The automaton after a call that completes represents what the call is expected to lead to. -/
theorem Occupies.represents {edit : Edit} {next : PlainAutomaton} {state : Nat}
    (occupies : automaton.Occupies state edit next) {after : Automaton} (done : edit = .done after) :
    after.Represents next := by
  -- An edit that is done had no fault.
  rcases occupies with ⟨other, same, represents⟩ | ⟨fault, failed, _⟩
  · obtain rfl : other = after := congrArg Edit.automaton (same.symm.trans done)
    exact represents
  · cases congrArg Edit.fault (failed.symm.trans done)

/-- A slot taken into use has empty rows in both directions. -/
theorem Represents.reused_clean (represents : automaton.Represents plain) {slot : Nat}
    (fresh : slot ∉ plain.active) {call : Call}
    (called : call ∈ [Call.addState slot, Call.setInitial slot, Call.setFinal slot])
    {after : Automaton} (done : automaton.call call = .done after) {symbol : Symbol}
    (inAlphabet : symbol.toNat < plain.alphabetSize) :
    after.successorsOf slot symbol = .ok [] ∧ after.predecessorsOf slot symbol = .ok [] := by
  -- Each of the calls makes the slot active and adds no transition.
  simp only [List.mem_cons, List.not_mem_nil, or_false] at called
  rcases called with rfl | rfl | rfl
  · exact ((represents.activate slot).represents done).rows_eq_nil fresh
      (Finset.mem_insert_self _ _) rfl inAlphabet
  · exact ((represents.setInitial slot).represents done).rows_eq_nil fresh
      (Finset.mem_insert_self _ _) rfl inAlphabet
  · exact ((represents.setFinal slot).represents done).rows_eq_nil fresh
      (Finset.mem_insert_self _ _) rfl inAlphabet

/-- A slot taken into use for a transition has that transition only. -/
theorem Represents.linked_clean (represents : automaton.Represents plain) {slot : Nat}
    (fresh : slot ∉ plain.active) {source target : Nat} {symbol : Symbol} {after : Automaton}
    (done : automaton.setTransition source target symbol = .done after) {step : Transition}
    (member : step ∈ after.transitions) (touches : step.source = slot ∨ step.target = slot) :
    step = ⟨source, target, symbol.toNat⟩ := by
  by_cases inAlphabet : symbol.toNat < plain.alphabetSize
  · rcases represents.setTransition source target inAlphabet with
      ⟨joined, same, result⟩ | ⟨fault, failed, _⟩ | ⟨_, fault, failed, _⟩
    · obtain rfl : joined = after := congrArg Edit.automaton (same.symm.trans done)
      rw [result.mem_transitions, PlainAutomaton.setTransition_transitions, Finset.mem_insert] at member
      rcases member with new | old
      · exact new
      · -- An old transition joins old states.
        rcases touches with rfl | rfl
        · exact absurd (plain.source_active step old) fresh
        · exact absurd (plain.target_active step old) fresh
    · cases congrArg Edit.fault (failed.symm.trans done)
    · cases congrArg Edit.fault (failed.symm.trans done)
  · rw [represents.setTransition_of_le source target (Nat.le_of_not_lt inAlphabet)] at done
    cases congrArg Edit.fault done

/-- An automaton that represents a plain one is coherent. -/
theorem Represents.coherent (represents : automaton.Represents plain) : automaton.Coherent := by
  -- All reports are read off the plain automaton, in which every property is easy to see.
  have reports := represents.reports
  have active : ∀ state, automaton.isActive state ↔ state ∈ plain.active := represents.active
  constructor
  case mirrored =>
    intro source target symbol sourceActive targetActive inAlphabet
    rw [active] at sourceActive targetActive
    rw [represents.alphabet] at inAlphabet
    refine ⟨(plain.targets source symbol.toNat).sort, (plain.sources target symbol.toNat).sort,
      ?_, ?_, ?_⟩
    · rw [reports.successorsOf, if_neg (not_not_intro sourceActive), if_pos inAlphabet]
    · rw [reports.predecessorsOf, if_neg (not_not_intro targetActive), if_pos inAlphabet]
    · rw [Finset.mem_sort, Finset.mem_sort, PlainAutomaton.mem_targets, PlainAutomaton.mem_sources]
  -- A call that lists something was admitted, and the list is a set of ends.
  case successors_active =>
    intro source symbol targets listed target member
    rw [reports.successorsOf] at listed
    split_ifs at listed
    cases listed
    rw [Finset.mem_sort, PlainAutomaton.mem_targets] at member
    exact (active target).2 (plain.target_active _ member)
  case predecessors_active =>
    intro target symbol sources listed source member
    rw [reports.predecessorsOf] at listed
    split_ifs at listed
    cases listed
    rw [Finset.mem_sort, PlainAutomaton.mem_sources] at member
    exact (active source).2 (plain.source_active _ member)
  -- The calls that bring a slot into use have lemmas of their own.
  case reused_clean =>
    intro slot unused call called after done symbol inAlphabet
    rw [active] at unused
    exact represents.reused_clean unused called done (represents.alphabet ▸ inAlphabet)
  case linked_clean =>
    intro slot unused source target symbol after done step member touches
    rw [active] at unused
    exact represents.linked_clean unused done member touches
  case initial_active =>
    intro state flagged
    exact (active state).2 (plain.initial_subset ((represents.initial state).1 flagged))
  case finals_active =>
    intro state flagged
    exact (active state).2 (plain.finals_subset ((represents.finals state).1 flagged))
  case consistent => exact represents.isConsistent

/-- Calls in a row leave an automaton that represents some plain one. -/
theorem Represents.exists_foldl_call (represents : automaton.Represents plain) (calls : List Call) :
    ∃ next, (calls.foldl (fun automaton call => (automaton.call call).automaton)
      automaton).Represents next := by
  -- The induction goes along the calls, each of which leaves something represented.
  induction calls generalizing automaton plain with
  | nil => exact ⟨plain, represents⟩
  | cons call rest hypothesis =>
    obtain ⟨next, after⟩ := represents.exists_call call
    exact hypothesis after

end Automaton

namespace Shelf

/-- To represent some plain automaton is a property that lasts. -/
theorem lasts_represents : Lasts fun automaton : Automaton => ∃ plain, automaton.Represents plain where
  -- Automata of models are led there by calls on one without states.
  make _ _ built := ⟨_, Automaton.represents_ofAlphabet built⟩
  ofModel model := by
    show ∃ plain, model.toAutomaton.Represents plain
    rw [Model.toAutomaton_eq]
    exact (Automaton.represents_blank model.alphabetSize).exists_foldl_call model.calls
  edit _ call held := by
    obtain ⟨_, represents⟩ := held
    exact represents.exists_call call

/-- Every automaton that a run leaves anywhere is coherent. -/
theorem coherent_run (calls : List Call) (place : Nat) (automaton : Automaton)
    (held : (run Automaton calls).1 place = some automaton) : automaton.Coherent := by
  obtain ⟨plain, represents⟩ := lasts_represents.run calls place automaton held
  exact represents.coherent

/-- A run with growth, a merge and a slot that is used again leaves a coherent automaton. -/
theorem coherent_run_reuse : ∃ automaton, (run Automaton reuseRun).1 0 = some automaton ∧
    automaton.Coherent := by
  -- The run leaves an automaton in its first place.
  have present : ((run Automaton reuseRun).1 0).isSome := rfl
  obtain ⟨automaton, held⟩ := Option.isSome_iff_exists.1 present
  exact ⟨automaton, held, coherent_run reuseRun 0 automaton held⟩

end Shelf

namespace Automaton

/-- An automaton that some run of calls leaves in some place. -/
def Reachable (automaton : Automaton) : Prop :=
  ∃ calls place, (Shelf.run Automaton calls).1 place = some automaton

/-- An automaton that a run leaves represents some plain one. -/
theorem Reachable.exists_represents {automaton : Automaton} (reachable : automaton.Reachable) :
    ∃ plain, automaton.Represents plain := by
  obtain ⟨calls, place, held⟩ := reachable
  exact Shelf.lasts_represents.run calls place automaton held

end Automaton

end NfaInduction
