import NfaInduction.Sample.Basic
import NfaInduction.TransitionMatrix

/-! An automaton is a set of active states with flags and transitions kept in both directions. -/

namespace NfaInduction

/-- A nondeterministic automaton over a fixed alphabet whose states are numbered slots. -/
structure Automaton where
  /-- Slots in use. -/
  active : StateSet
  /-- States where a run may start. -/
  initial : StateSet
  /-- States where a run may end. -/
  finals : StateSet
  /-- For a state and a symbol, the states that reach it. -/
  predecessors : TransitionMatrix
  /-- For a state and a symbol, the states reached from it. -/
  successors : TransitionMatrix
deriving DecidableEq

namespace Automaton

/-- The automaton with room for one block of states, none of them active. -/
def ofMatrix (matrix : TransitionMatrix) : Automaton :=
  let noStates := StateSet.ofCapacity Capacity.block
  ⟨noStates, noStates, noStates, matrix, matrix⟩

/-- The automaton without states over an alphabet that is known to be small enough. -/
def blank (alphabetSize : Nat) : Automaton :=
  ofMatrix (.zero alphabetSize Capacity.block)

/-- The automaton without states over an alphabet that is not too large, its memory granted. -/
def ofAlphabet (alphabetSize : Nat) : Except Fault Automaton :=
  (TransitionMatrix.ofCapacity alphabetSize Capacity.block).map ofMatrix

/-- Number of symbols, which are the numbers below it. -/
def alphabetSize (automaton : Automaton) : Nat := automaton.successors.alphabetSize

/-- Number of slots there is room for. -/
def maxStates (automaton : Automaton) : Nat := automaton.active.capacity

/-- Number of states. -/
def stateCount (automaton : Automaton) : Nat := automaton.active.size

/-- States in ascending order. -/
def states (automaton : Automaton) : List Nat := automaton.active.toList

/-- Initial states in ascending order. -/
def initialStates (automaton : Automaton) : List Nat := automaton.initial.toList

/-- Final states in ascending order. -/
def finalStates (automaton : Automaton) : List Nat := automaton.finals.toList

/-- Whether a slot is in use. -/
def isActive (automaton : Automaton) (state : Nat) : Bool := automaton.active.contains state

/-- Whether a state is initial. -/
def isInitial (automaton : Automaton) (state : Nat) : Bool := automaton.initial.contains state

/-- Whether a state is final. -/
def isFinal (automaton : Automaton) (state : Nat) : Bool := automaton.finals.contains state

/-- The number of a symbol of the alphabet. -/
def symbolIndex (automaton : Automaton) (symbol : Symbol) : Except Fault Nat :=
  if symbol.toNat < automaton.alphabetSize then .ok symbol.toNat
  else .error (.symbolOutOfRange symbol automaton.alphabetSize)

/-- Whether one state is joined to another by a symbol. -/
def hasTransition (automaton : Automaton) (source target : Nat) (symbol : Symbol) :
    Except Fault Bool := do
  let symbol ← automaton.symbolIndex symbol
  return automaton.isActive source && automaton.isActive target &&
    automaton.successors.contains source symbol target

/-- States in the row of an active state in one direction. -/
def neighbors (automaton : Automaton) (matrix : TransitionMatrix) (state : Nat)
    (symbol : Symbol) : Except Fault (List Nat) := do
  -- An inactive state is reported before a symbol outside the alphabet.
  if automaton.isActive state then
    let symbol ← automaton.symbolIndex symbol
    return (matrix.row state symbol).toList
  else .error (.inactiveState state)

/-- States that an active state reaches by a symbol, in ascending order. -/
def successorsOf (automaton : Automaton) (state : Nat) (symbol : Symbol) :
    Except Fault (List Nat) :=
  automaton.neighbors automaton.successors state symbol

/-- States that reach an active state by a symbol, in ascending order. -/
def predecessorsOf (automaton : Automaton) (state : Nat) (symbol : Symbol) :
    Except Fault (List Nat) :=
  automaton.neighbors automaton.predecessors state symbol

/-- A step of a run, from one state to another by a symbol. -/
structure Transition where
  /-- State before the step. -/
  source : Nat
  /-- State after the step. -/
  target : Nat
  /-- Symbol that the step reads. -/
  symbol : Nat
deriving DecidableEq

/-- Transitions that leave a state, by symbol and then by target. -/
def transitionsFrom (automaton : Automaton) (source : Nat) : List Transition :=
  (List.range automaton.alphabetSize).flatMap fun symbol =>
    (automaton.successors.row source symbol).toList.map fun target => ⟨source, target, symbol⟩

/-- All transitions, by source, then by symbol, then by target. -/
def transitions (automaton : Automaton) : List Transition :=
  automaton.states.flatMap automaton.transitionsFrom

/-- The lowest slot not in use, which lies at the end if every slot is in use. -/
def inactiveState (automaton : Automaton) : Nat :=
  automaton.active.firstAbsent?.getD automaton.maxStates

/-- Whether every row of a state names active states that name it back in the other direction. -/
def rowsAgree (automaton : Automaton) (state : Nat) : Bool :=
  (List.range automaton.alphabetSize).all fun symbol =>
    ((automaton.successors.row state symbol).toList.all fun target =>
      automaton.isActive target && automaton.predecessors.contains target symbol state) &&
    ((automaton.predecessors.row state symbol).toList.all fun source =>
      automaton.isActive source && automaton.successors.contains source symbol state)

/-- Whether both directions agree and only active states carry flags and transitions. -/
def isConsistent (automaton : Automaton) : Bool :=
  automaton.initialStates.all automaton.isActive &&
    automaton.finalStates.all automaton.isActive &&
    automaton.states.all automaton.rowsAgree

/-- Bytes that the sets and matrices take. -/
def heapBytes (automaton : Automaton) : Nat :=
  automaton.active.heapBytes + automaton.initial.heapBytes + automaton.finals.heapBytes +
    automaton.predecessors.heapBytes + automaton.successors.heapBytes

end Automaton

end NfaInduction
