import NfaInduction.Word

/-! Capacities grow by doubling, and the size they lead to is known before anything is built. -/

namespace NfaInduction

namespace Capacity

/-- Number of slots every capacity is a multiple of. -/
def block : Nat := 256

/-- Number of slots an automaton may grow to. -/
def maxStates : Nat := 1 <<< 20

/-- Bytes that one direction of the transitions of an automaton read from text may take. -/
def maxMatrixBytes : Nat := 1 <<< 30

/-- The least multiple of the block with room for `states` slots, one block at least. -/
def aligned (states : Nat) : Nat := max ((states + (block - 1)) / block) 1 * block

/-- The least power of two with room for `states` slots, one block at least. -/
def grown (states : Nat) : Nat := max states.nextPowerOfTwo block

/-- The capacity doubled until `state` lies below it. -/
def doubled (capacity state : Nat) : Nat :=
  if short : 0 < capacity ∧ capacity ≤ state then doubled (capacity * 2) state else capacity
termination_by state + 1 - capacity

/-- A number of things, if it can be counted in sixty-four bits. -/
def addressable (number : Nat) : Option Nat := if number < UInt64.size then some number else none

/-- Words of a matrix with one row of `capacity` bits for each slot and symbol. -/
def tableWords (alphabetSize capacity : Nat) : Option Nat := do
  let rows ← addressable (capacity * alphabetSize)
  addressable (rows * Word.countFor capacity)

/-- Bytes that one direction of the transitions takes once `states` slots are in use. -/
def matrixBytes (alphabetSize states : Nat) : Option Nat :=
  if states ≤ maxStates then do
    let words ← tableWords alphabetSize (grown states)
    addressable (words * 8)
  else none

/-- Whether an automaton of this size is small enough to be built from text. -/
def fits (alphabetSize states : Nat) : Bool :=
  (matrixBytes alphabetSize states).any (· ≤ maxMatrixBytes)

end Capacity

end NfaInduction
