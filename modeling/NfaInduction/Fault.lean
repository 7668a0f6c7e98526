/-! A fault is a call that state sets, matrices or automata, or the memory for them, do not admit. -/

namespace NfaInduction

/-- The precondition that a call missed, or the memory that it missed. -/
inductive Fault where
  /-- A state lies at or beyond the number of slots there can be. -/
  | stateOutOfRange (state limit : Nat)
  /-- Two state sets of different capacities were combined. -/
  | differentCapacities
  /-- A symbol lies outside the alphabet. -/
  | symbolOutOfRange (symbol : UInt32) (alphabetSize : Nat)
  /-- A query names a state that is not active. -/
  | inactiveState (state : Nat)
  /-- A merge names a state that is not active. -/
  | mergeOnInactive (state : Nat)
  /-- A merge names the same state twice. -/
  | mergeWithItself
  /-- The number of words of a transition matrix exceeds the address space. -/
  | matrixTooLarge (capacity alphabetSize : Nat)
  /-- A vector would take more bytes than one may take. -/
  | capacityOverflow
  /-- The allocator refused a number of bytes. -/
  | outOfMemory (bytes : Nat)
deriving DecidableEq

/-- What is reported about a fault. -/
def Fault.message : Fault → String
  | .stateOutOfRange state limit => s!"state out of range: {state} >= {limit}"
  | .differentCapacities => "state sets of different capacities"
  | .symbolOutOfRange symbol size => s!"symbol out of range: {symbol.toNat} >= {size}"
  | .inactiveState state => s!"inactive state: {state}"
  | .mergeOnInactive state => s!"merge on inactive state: {state}"
  | .mergeWithItself => "merge of a state with itself"
  | .matrixTooLarge capacity size =>
    s!"transition matrix too large: {capacity} states, {size} symbols"
  | .capacityOverflow => "capacity overflow"
  | .outOfMemory bytes => s!"memory allocation of {bytes} bytes failed"

end NfaInduction
