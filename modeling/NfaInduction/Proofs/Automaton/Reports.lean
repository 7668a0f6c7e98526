import Mathlib.Data.Finset.Sort
import Mathlib.Order.Bounds.Defs
import NfaInduction.Proofs.Automaton.Represents
import NfaInduction.Proofs.StateSet.Bounded

/-! What an automaton reports about itself is what the plain automaton that it represents shows. -/

namespace NfaInduction

namespace Automaton

/-- Whether a transition is listed before another: by source, then by symbol, then by target. -/
def Transition.Before (left right : Transition) : Prop :=
  left.source < right.source ∨ (left.source = right.source ∧
    (left.symbol < right.symbol ∨ (left.symbol = right.symbol ∧ left.target < right.target)))

/-- No transition is listed before itself. -/
instance : Std.Irrefl Transition.Before where
  irrefl step before := by
    unfold Transition.Before at before
    omega

/-- No two transitions are listed before each other. -/
instance : Std.Antisymm Transition.Before where
  antisymm left right before after := by
    unfold Transition.Before at before after
    omega

end Automaton

namespace PlainAutomaton

/-- States that a state reaches by a symbol. -/
def targets (plain : PlainAutomaton) (source symbol : Nat) : Finset Nat :=
  (plain.transitions.filter fun step => step.source = source ∧ step.symbol = symbol).image (·.target)

/-- States that reach a state by a symbol. -/
def sources (plain : PlainAutomaton) (target symbol : Nat) : Finset Nat :=
  (plain.transitions.filter fun step => step.target = target ∧ step.symbol = symbol).image (·.source)

/-- A target is where some transition leads. -/
theorem mem_targets {plain : PlainAutomaton} {source target symbol : Nat} :
    target ∈ plain.targets source symbol ↔ ⟨source, target, symbol⟩ ∈ plain.transitions := by
  -- A transition is known by its source, target and symbol.
  rw [targets, Finset.mem_image]
  constructor
  · rintro ⟨step, member, rfl⟩
    obtain ⟨held, rfl, rfl⟩ := Finset.mem_filter.1 member
    exact held
  · intro held
    exact ⟨_, Finset.mem_filter.2 ⟨held, rfl, rfl⟩, rfl⟩

/-- A source is where some transition starts. -/
theorem mem_sources {plain : PlainAutomaton} {source target symbol : Nat} :
    source ∈ plain.sources target symbol ↔ ⟨source, target, symbol⟩ ∈ plain.transitions := by
  -- A transition is known by its source, target and symbol.
  rw [sources, Finset.mem_image]
  constructor
  · rintro ⟨step, member, rfl⟩
    obtain ⟨held, rfl, rfl⟩ := Finset.mem_filter.1 member
    exact held
  · intro held
    exact ⟨_, Finset.mem_filter.2 ⟨held, rfl, rfl⟩, rfl⟩

end PlainAutomaton

namespace Automaton

/-- Each query about an automaton has the answer that a plain automaton gives. -/
structure Reports (automaton : Automaton) (plain : PlainAutomaton) : Prop where
  /-- The alphabet is the same. -/
  alphabetSize : automaton.alphabetSize = plain.alphabetSize
  /-- States are counted. -/
  stateCount : automaton.stateCount = plain.active.card
  /-- States are listed in ascending order. -/
  states : automaton.states = plain.active.sort
  /-- Initial states are listed in ascending order. -/
  initialStates : automaton.initialStates = plain.initial.sort
  /-- Final states are listed in ascending order. -/
  finalStates : automaton.finalStates = plain.finals.sort
  /-- Any number is known to be a state or not. -/
  isActive : ∀ state, automaton.isActive state = decide (state ∈ plain.active)
  /-- Any number is known to be an initial state or not. -/
  isInitial : ∀ state, automaton.isInitial state = decide (state ∈ plain.initial)
  /-- Any number is known to be a final state or not. -/
  isFinal : ∀ state, automaton.isFinal state = decide (state ∈ plain.finals)
  /-- A transition is there or not, unless its symbol is unknown. -/
  hasTransition : ∀ source target (symbol : Symbol), automaton.hasTransition source target symbol =
    if symbol.toNat < plain.alphabetSize then
      .ok (decide (⟨source, target, symbol.toNat⟩ ∈ plain.transitions))
    else .error (.symbolOutOfRange symbol plain.alphabetSize)
  /-- Successors of a state are listed in ascending order. -/
  successorsOf : ∀ source (symbol : Symbol), automaton.successorsOf source symbol =
    if source ∉ plain.active then .error (.inactiveState source)
    else if symbol.toNat < plain.alphabetSize then .ok (plain.targets source symbol.toNat).sort
    else .error (.symbolOutOfRange symbol plain.alphabetSize)
  /-- Predecessors of a state are listed in ascending order. -/
  predecessorsOf : ∀ target (symbol : Symbol), automaton.predecessorsOf target symbol =
    if target ∉ plain.active then .error (.inactiveState target)
    else if symbol.toNat < plain.alphabetSize then .ok (plain.sources target symbol.toNat).sort
    else .error (.symbolOutOfRange symbol plain.alphabetSize)
  /-- Transitions are listed in strict order. -/
  transitions_pairwise : automaton.transitions.Pairwise Transition.Before
  /-- Exactly the transitions are listed. -/
  mem_transitions : ∀ step, step ∈ automaton.transitions ↔ step ∈ plain.transitions
  /-- The next slot to be used is the least number that is not a state. -/
  inactiveState : IsLeast { state | state ∉ plain.active } automaton.inactiveState

variable {automaton : Automaton} {plain : PlainAutomaton}

/-- Listed states are those of the plain automaton. -/
theorem Represents.mem_states (represents : automaton.Represents plain) (state : Nat) :
    state ∈ automaton.states ↔ state ∈ plain.active :=
  StateSet.mem_toList.trans (represents.active state)

/-- Listed initial states are those of the plain automaton. -/
theorem Represents.mem_initialStates (represents : automaton.Represents plain) (state : Nat) :
    state ∈ automaton.initialStates ↔ state ∈ plain.initial :=
  StateSet.mem_toList.trans (represents.initial state)

/-- Listed final states are those of the plain automaton. -/
theorem Represents.mem_finalStates (represents : automaton.Represents plain) (state : Nat) :
    state ∈ automaton.finalStates ↔ state ∈ plain.finals :=
  StateSet.mem_toList.trans (represents.finals state)

/-- A transition is held by the row of its source and symbol. -/
theorem Represents.contains_of_mem (represents : automaton.Represents plain) {step : Transition}
    (member : step ∈ plain.transitions) :
    automaton.successors.contains step.source step.symbol step.target := by
  -- Its source is active and its symbol in range, so that the row is one that counts.
  have layer := represents.layers step.symbol (plain.symbol_lt step member)
  exact (layer.successors step.source (plain.source_active step member) step.target).2 member

/-- A listed transition is one of the plain automaton, and the other way round. -/
theorem Represents.mem_transitions (represents : automaton.Represents plain) (step : Transition) :
    step ∈ automaton.transitions ↔ step ∈ plain.transitions := by
  -- The listing goes over active sources and symbols in range, and every step has both.
  rw [transitions, List.mem_flatMap]
  constructor
  · rintro ⟨source, active, listed⟩
    obtain ⟨symbol, inAlphabet, listed⟩ := List.mem_flatMap.1 listed
    obtain ⟨target, held, rfl⟩ := List.mem_map.1 listed
    have member := (represents.mem_states source).1 active
    have layer := represents.layers symbol (represents.alphabet ▸ List.mem_range.1 inAlphabet)
    exact (layer.successors source member target).1 (StateSet.mem_toList.1 held)
  · intro member
    have source := plain.source_active step member
    have symbol := plain.symbol_lt step member
    have held := represents.contains_of_mem member
    refine ⟨step.source, (represents.mem_states _).2 source, ?_⟩
    exact List.mem_flatMap.2 ⟨step.symbol, List.mem_range.2 (represents.alphabet ▸ symbol),
      List.mem_map.2 ⟨step.target, StateSet.mem_toList.2 held, rfl⟩⟩

/-- Items are in the order that compares the numbers they are made of, if these all ascend. -/
theorem pairwise_flatMap_flatMap {α : Type} {before : α → α → Prop} {item : Nat → Nat → Nat → α}
    {firsts : List Nat} {seconds : Nat → List Nat} {thirds : Nat → Nat → List Nat}
    (firstsAscend : firsts.Pairwise (· < ·)) (secondsAscend : ∀ first, (seconds first).Pairwise (· < ·))
    (thirdsAscend : ∀ first second, (thirds first second).Pairwise (· < ·))
    (byFirst : ∀ low high second third other another, low < high →
      before (item low second third) (item high other another))
    (bySecond : ∀ first low high third another, low < high →
      before (item first low third) (item first high another))
    (byThird : ∀ first second low high, low < high →
      before (item first second low) (item first second high)) :
    (firsts.flatMap fun first => (seconds first).flatMap fun second =>
      (thirds first second).map (item first second)).Pairwise before := by
  -- The last number decides within a list, and the ones before it between lists.
  refine List.pairwise_flatMap.2 ⟨fun first _ => ?_, firstsAscend.imp ?_⟩
  · refine List.pairwise_flatMap.2 ⟨fun second _ => ?_, (secondsAscend first).imp ?_⟩
    · exact List.pairwise_map.2 ((thirdsAscend first second).imp fun below => byThird _ _ _ _ below)
    · intro low high below left inLeft right inRight
      obtain ⟨_, _, rfl⟩ := List.mem_map.1 inLeft
      obtain ⟨_, _, rfl⟩ := List.mem_map.1 inRight
      exact bySecond _ _ _ _ _ below
  · intro low high below left inLeft right inRight
    obtain ⟨_, _, inLeft⟩ := List.mem_flatMap.1 inLeft
    obtain ⟨_, _, rfl⟩ := List.mem_map.1 inLeft
    obtain ⟨_, _, inRight⟩ := List.mem_flatMap.1 inRight
    obtain ⟨_, _, rfl⟩ := List.mem_map.1 inRight
    exact byFirst _ _ _ _ _ _ below

/-- Transitions are listed by source, then by symbol, then by target, each of them once. -/
theorem pairwise_transitions (automaton : Automaton) :
    automaton.transitions.Pairwise Transition.Before := by
  -- Sources, symbols and targets are each listed in ascending order.
  refine pairwise_flatMap_flatMap automaton.active.pairwise_toList
    (fun source => List.pairwise_lt_range) (fun source symbol => StateSet.pairwise_toList _) ?_ ?_ ?_
  · exact fun low high symbol target other another below => .inl below
  · exact fun source low high target another below => .inr ⟨rfl, .inl below⟩
  · exact fun source symbol low high below => .inr ⟨rfl, .inr ⟨rfl, below⟩⟩

/-- The slot to be used next is the least number that is not a state. -/
theorem Represents.isLeast_inactiveState (represents : automaton.Represents plain) :
    IsLeast { state | state ∉ plain.active } automaton.inactiveState := by
  rw [inactiveState]
  cases found : automaton.active.firstAbsent? with
  | none =>
    -- All slots are in use, and the first number behind them is not.
    have full := StateSet.firstAbsent?_eq_none_iff.1 found
    constructor
    · intro member
      exact absurd (represents.lt_maxStates member) (Nat.lt_irrefl _)
    · intro state absent
      refine Nat.le_of_not_lt fun below => absent ?_
      exact (represents.active state).1 (full state below)
  | some slot =>
    obtain ⟨_, absent, lower⟩ := StateSet.firstAbsent?_eq_some found
    constructor
    · intro member
      exact absent ((represents.active slot).2 member)
    · intro state missing
      refine Nat.le_of_not_lt fun below => missing ?_
      exact (represents.active state).1 (lower state below)

/-- A symbol of the alphabet has its number, and any other is refused. -/
theorem Represents.symbolIndex (represents : automaton.Represents plain) (symbol : Symbol) :
    automaton.symbolIndex symbol = if symbol.toNat < plain.alphabetSize then .ok symbol.toNat
      else .error (.symbolOutOfRange symbol plain.alphabetSize) := by
  rw [Automaton.symbolIndex, represents.alphabet]

/-- A transition is looked up among those of the plain automaton. -/
theorem Represents.hasTransition (represents : automaton.Represents plain) (source target : Nat)
    (symbol : Symbol) : automaton.hasTransition source target symbol =
      if symbol.toNat < plain.alphabetSize then
        .ok (decide (⟨source, target, symbol.toNat⟩ ∈ plain.transitions))
      else .error (.symbolOutOfRange symbol plain.alphabetSize) := by
  rw [Automaton.hasTransition, represents.symbolIndex]
  split
  · rename_i inAlphabet
    refine congrArg Except.ok (Bool.eq_iff_iff.2 ?_)
    rw [Bool.and_eq_true, Bool.and_eq_true, isActive, isActive, represents.active,
      represents.active, decide_eq_true_eq]
    constructor
    · rintro ⟨⟨member, _⟩, held⟩
      exact ((represents.layers _ inAlphabet).successors source member target).1 held
    · intro held
      -- A transition is recorded only between states.
      have member := plain.source_active _ held
      exact ⟨⟨member, plain.target_active _ held⟩,
        ((represents.layers _ inAlphabet).successors source member target).2 held⟩
  · rfl

/-- A transition is found exactly if the plain automaton has it. -/
theorem Represents.hasTransition_eq_true (represents : automaton.Represents plain)
    {source target : Nat} {symbol : Symbol} :
    automaton.hasTransition source target symbol = .ok true ↔
      ⟨source, target, symbol.toNat⟩ ∈ plain.transitions := by
  -- A symbol out of range gives a fault, and no transition carries one.
  rw [represents.hasTransition]
  constructor
  · intro found
    split at found
    · exact of_decide_eq_true (Except.ok.inj found)
    · cases found
  · intro member
    rw [if_pos (plain.symbol_lt _ member), decide_eq_true member]

/-- The row of a state in one direction is listed in ascending order. -/
theorem Represents.neighbors (represents : automaton.Represents plain) {matrix : TransitionMatrix}
    {states : Finset Nat} (state : Nat) (symbol : Symbol)
    (held : state ∈ plain.active → symbol.toNat < plain.alphabetSize →
      ∀ other, matrix.contains state symbol.toNat other ↔ other ∈ states) :
    automaton.neighbors matrix state symbol =
      if state ∉ plain.active then .error (.inactiveState state)
      else if symbol.toNat < plain.alphabetSize then .ok states.sort
      else .error (.symbolOutOfRange symbol plain.alphabetSize) := by
  -- An inactive state is refused before the symbol is looked at.
  rw [Automaton.neighbors, isActive, represents.symbolIndex]
  by_cases member : state ∈ plain.active
  · rw [if_pos ((represents.active state).2 member), if_neg (not_not_intro member)]
    split
    · rename_i inAlphabet
      exact congrArg Except.ok (StateSet.toList_eq_sort (held member inAlphabet))
    · rfl
  · rw [if_neg fun active => member ((represents.active state).1 active), if_pos member]

/-- An automaton reports what the plain automaton that it represents shows. -/
theorem Represents.reports (represents : automaton.Represents plain) : automaton.Reports plain := by
  -- Each listing is an ascending enumeration of the finite set its flags hold.
  have active := fun state => Bool.eq_iff_iff.2 ((represents.active state).trans
    decide_eq_true_iff.symm)
  constructor
  case alphabetSize => exact represents.alphabet
  case stateCount =>
    rw [stateCount, ← StateSet.length_toList, StateSet.toList_eq_sort represents.active,
      Finset.length_sort]
  case states => exact StateSet.toList_eq_sort represents.active
  case initialStates => exact StateSet.toList_eq_sort represents.initial
  case finalStates => exact StateSet.toList_eq_sort represents.finals
  case isActive => exact active
  case isInitial =>
    exact fun state => Bool.eq_iff_iff.2 ((represents.initial state).trans decide_eq_true_iff.symm)
  case isFinal =>
    exact fun state => Bool.eq_iff_iff.2 ((represents.finals state).trans decide_eq_true_iff.symm)
  case hasTransition => exact represents.hasTransition
  case successorsOf =>
    intro source symbol
    exact represents.neighbors source symbol fun member inAlphabet target =>
      ((represents.layers _ inAlphabet).successors source member target).trans
        PlainAutomaton.mem_targets.symm
  case predecessorsOf =>
    intro target symbol
    exact represents.neighbors target symbol fun member inAlphabet source =>
      ((represents.layers _ inAlphabet).predecessors target member source).trans
        PlainAutomaton.mem_sources.symm
  case transitions_pairwise => exact automaton.pairwise_transitions
  case mem_transitions => exact represents.mem_transitions
  case inactiveState => exact represents.isLeast_inactiveState

/-- Automata that represent the same plain one list the same transitions in the same order. -/
theorem Represents.transitions_eq {other : Automaton} (represents : automaton.Represents plain)
    (same : other.Represents plain) : automaton.transitions = other.transitions := by
  refine automaton.pairwise_transitions.eq_of_mem_iff other.pairwise_transitions fun step => ?_
  rw [represents.mem_transitions, same.mem_transitions]

end Automaton

end NfaInduction
