import NfaInduction.Automaton.Edit

/-! A model describes an automaton whose states are numbered from zero without gaps. -/

namespace NfaInduction

/-- A description of an automaton whose states are the numbers below their count. -/
structure Model where
  /-- Number of symbols of the alphabet. -/
  alphabetSize : Nat
  /-- Number of states. -/
  stateCount : Nat
  /-- States where a run may start. -/
  initial : List Nat
  /-- States where a run may end. -/
  finals : List Nat
  /-- Steps of runs. -/
  transitions : List Automaton.Transition
deriving DecidableEq

namespace Automaton

/-- For each slot in use, how many slots below it are in use. -/
def numbering (automaton : Automaton) : Array Nat :=
  automaton.states.zipIdx.foldl (fun numbers (state, number) => numbers.setIfInBounds state number)
    (Array.replicate automaton.maxStates 0)

/-- States that one state reaches by any symbol, in ascending order. -/
def targetsOf (automaton : Automaton) (source : Nat) : List Nat :=
  ((List.range automaton.alphabetSize).foldl
    (fun targets symbol => targets.union (automaton.successors.row source symbol))
    (StateSet.ofCapacity automaton.maxStates)).toList

/-- Symbols that lead from one state to another, in ascending order. -/
def symbolsBetween (automaton : Automaton) (source target : Nat) : List Nat :=
  (List.range automaton.alphabetSize).filter (automaton.successors.contains source · target)

/-- All transitions, by source, then by target, then by symbol. -/
def transitionsByPair (automaton : Automaton) : List Transition :=
  automaton.states.flatMap fun source =>
    (automaton.targetsOf source).flatMap fun target =>
      (automaton.symbolsBetween source target).map fun symbol => ⟨source, target, symbol⟩

/-- The description of an automaton with its states renumbered in their order. -/
def toModel (automaton : Automaton) : Model :=
  let numbers := automaton.numbering
  -- Every state that is mentioned is in use and has a number.
  let number := fun state => numbers.getD state 0
  { alphabetSize := automaton.alphabetSize
    stateCount := automaton.stateCount
    initial := automaton.initialStates.map number
    finals := automaton.finalStates.map number
    transitions := automaton.transitionsByPair.map fun step =>
      ⟨number step.source, number step.target, step.symbol⟩ }

end Automaton

namespace Model

/-- The automaton that results from calls none of which misses its precondition. -/
def afterAll {α : Type} (items : List α) (call : Automaton → α → Edit) (automaton : Automaton) :
    Automaton :=
  items.foldl (fun automaton item => (call automaton item).automaton) automaton

/-- The automaton that a model describes. -/
def toAutomaton (model : Model) : Automaton :=
  -- Every state is activated, even one without flags and transitions.
  let states := afterAll (List.range model.stateCount) (·.addState) (.blank model.alphabetSize)
  let started := afterAll model.initial (·.setInitial) states
  let flagged := afterAll model.finals (·.setFinal) started
  afterAll model.transitions
    (fun automaton step =>
      automaton.setTransition step.source step.target (UInt32.ofNat step.symbol)) flagged

end Model

end NfaInduction
