import NfaInduction.Automaton.Basic

/-! New sets, matrices and automata take the memory of their words from an allocator. -/

namespace NfaInduction

/-- What an allocator makes of a request for bytes: the memory left, or none if it refuses. -/
abbrev Allocator (heap : Type) := Nat → heap → Option heap

namespace Allocator

variable {heap : Type} (allocator : Allocator heap)

/-- Bytes that one vector may take. -/
def maxBytes : Nat := (1 <<< 63) - 1

/-- The allocator that grants whatever it is asked for. -/
def boundless : Allocator Unit := fun _ _ => some ()

/-- The memory left after a vector of words, of which one without words takes none. -/
def grant? (free : heap) (words : Nat) : Option heap :=
  if words = 0 then some free else allocator (words * 8) free

/-- The memory left after some vectors, if all of them are granted. -/
def grantAll? (free : heap) (vectors : List Nat) : Option heap :=
  vectors.foldlM allocator.grant? free

/-- Takes the memory of a vector of words. -/
def takeWords (words : Nat) : StateT heap (Except Fault) Unit := fun free =>
  if maxBytes < words * 8 then .error .capacityOverflow
  else match allocator.grant? free words with
    | some rest => .ok ((), rest)
    | none => .error (.outOfMemory (words * 8))

end Allocator

variable {heap : Type} (allocator : Allocator heap)

/-- Allocates the empty set with room for the states below `capacity`. -/
def StateSet.allocate (capacity : Nat) : StateT heap (Except Fault) StateSet := do
  allocator.takeWords (Word.countFor capacity)
  return .ofCapacity capacity

/-- Allocates the matrix of empty rows for a capacity, whose words are counted first. -/
def TransitionMatrix.allocate (alphabetSize capacity : Nat) :
    StateT heap (Except Fault) TransitionMatrix :=
  match Capacity.tableWords alphabetSize capacity with
  | none => throw (.matrixTooLarge capacity alphabetSize)
  | some words => do
    allocator.takeWords words
    return .zero alphabetSize capacity

/-- Allocates the automaton without states over an alphabet, its three sets before its matrices. -/
def Automaton.allocate (alphabetSize : Nat) : StateT heap (Except Fault) Automaton := do
  -- The sets always take a block, whatever the alphabet.
  let active ← StateSet.allocate allocator Capacity.block
  let initial ← StateSet.allocate allocator Capacity.block
  let finals ← StateSet.allocate allocator Capacity.block
  let predecessors ← TransitionMatrix.allocate allocator alphabetSize Capacity.block
  let successors ← TransitionMatrix.allocate allocator alphabetSize Capacity.block
  return ⟨active, initial, finals, predecessors, successors⟩

end NfaInduction
