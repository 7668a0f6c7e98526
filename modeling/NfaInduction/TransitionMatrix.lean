import NfaInduction.Capacity
import NfaInduction.Fault
import NfaInduction.StateSet.Basic

/-! A transition matrix keeps one packed row of states for each state and symbol. -/

namespace NfaInduction

/--
One packed row of states for each pair of a state and a symbol.

The row of a pair is the one with index `state * alphabetSize + symbol`.
-/
structure TransitionMatrix where
  /-- Number of symbols that have a row for each state. -/
  alphabetSize : Nat
  /-- Number of states that have rows, and that each row has room for. -/
  capacity : Nat
  /-- All rows one after the other. -/
  rows : Array StateSet
  /-- There is a row for every symbol of every state. -/
  size_rows : rows.size = capacity * alphabetSize
  /-- Every row has room for every state. -/
  width_rows : ∀ row ∈ rows, row.words.size = Word.countFor capacity
deriving DecidableEq

namespace TransitionMatrix

/-- The matrix of empty rows for a capacity. -/
def zero (alphabetSize capacity : Nat) : TransitionMatrix where
  alphabetSize := alphabetSize
  capacity := capacity
  rows := Array.replicate (capacity * alphabetSize) (StateSet.ofCapacity capacity)
  size_rows := Array.size_replicate
  width_rows := by
    -- All rows are one and the same.
    intro row member
    rw [(Array.mem_replicate.1 member).2]
    exact Array.size_replicate

/-- The matrix of empty rows for a capacity, unless it has too many words, its memory granted. -/
def ofCapacity (alphabetSize capacity : Nat) : Except Fault TransitionMatrix :=
  match Capacity.tableWords alphabetSize capacity with
  | some _ => .ok (zero alphabetSize capacity)
  | none => .error (.matrixTooLarge capacity alphabetSize)

/-- Index of the row of a state and a symbol. -/
def rowIndex (matrix : TransitionMatrix) (state symbol : Nat) : Nat :=
  state * matrix.alphabetSize + symbol

/-- The states in a row. -/
def row (matrix : TransitionMatrix) (state symbol : Nat) : StateSet :=
  if present : matrix.rowIndex state symbol < matrix.rows.size then
    matrix.rows[matrix.rowIndex state symbol]
  else StateSet.ofCapacity matrix.capacity

/-- A row has room for every state. -/
theorem size_row (matrix : TransitionMatrix) (state symbol : Nat) :
    (matrix.row state symbol).words.size = Word.countFor matrix.capacity := by
  -- It is one of the rows of the matrix, or a new one.
  rw [row]
  split
  · exact matrix.width_rows _ (Array.getElem_mem _)
  · exact Array.size_replicate

/-- Whether a row has a member. -/
def contains (matrix : TransitionMatrix) (state symbol member : Nat) : Bool :=
  (matrix.row state symbol).contains member

/-- The matrix with one row changed, which keeps its room. -/
def modifyRow (matrix : TransitionMatrix) (state symbol : Nat) (change : StateSet → StateSet)
    (keeps : ∀ row, row.words.size = Word.countFor matrix.capacity →
      (change row).words.size = Word.countFor matrix.capacity) : TransitionMatrix where
  alphabetSize := matrix.alphabetSize
  capacity := matrix.capacity
  rows := matrix.rows.modify (matrix.rowIndex state symbol) change
  size_rows := by rw [Array.size_modify, matrix.size_rows]
  width_rows := by
    -- A row is the changed one or as it was.
    intro row member
    obtain ⟨index, present, rfl⟩ := Array.getElem_of_mem member
    rw [Array.size_modify] at present
    have before := matrix.width_rows _ (Array.getElem_mem present)
    rw [Array.getElem_modify]
    split
    · exact keeps _ before
    · exact before

/-- The matrix with a member added to a row. -/
def insert (matrix : TransitionMatrix) (state symbol member : Nat) : TransitionMatrix :=
  matrix.modifyRow state symbol (·.insert member) fun _ room => by simpa [StateSet.insert] using room

/-- The matrix with a member of a row replaced by another state. -/
def redirect (matrix : TransitionMatrix) (state symbol old new : Nat) : TransitionMatrix :=
  matrix.modifyRow state symbol (fun row => (row.insert new).erase old) fun _ room => by
    simpa [StateSet.insert, StateSet.erase] using room

/-- The matrix with the row of one state and symbol added to the row of another state. -/
def unionRows (matrix : TransitionMatrix) (symbol target source : Nat) : TransitionMatrix :=
  let members := matrix.row source symbol
  have room : members.words.size = Word.countFor matrix.capacity := matrix.size_row source symbol
  matrix.modifyRow target symbol (·.union members) fun _ width => by
    simp [StateSet.union, width, room]

/-- The matrix with the rows of a state emptied for the symbols below a number. -/
def clearBelow (matrix : TransitionMatrix) (state count : Nat) : TransitionMatrix :=
  Nat.fold count (fun symbol _ changed =>
    changed.modifyRow state symbol (·.clear) fun row room => by rwa [row.size_clear]) matrix

/-- The matrix with every row of a state emptied. -/
def clearState (matrix : TransitionMatrix) (state : Nat) : TransitionMatrix :=
  matrix.clearBelow state matrix.alphabetSize

/-- Rows for another capacity, where those of the live states keep their members. -/
def resizedRows (matrix : TransitionMatrix) (capacity : Nat) (live : StateSet) : Array StateSet :=
  let fresh := StateSet.ofCapacity capacity
  Array.ofFn fun (index : Fin (capacity * matrix.alphabetSize)) =>
    let row := matrix.rows.getD index.val fresh
    -- All rows without members are one and the same.
    if live.contains (index.val / matrix.alphabetSize) && row.isNonempty then row.resize capacity
    else fresh

/-- Every row for another capacity has room for it. -/
theorem size_of_mem_resizedRows {matrix : TransitionMatrix} {capacity : Nat} {live row : StateSet}
    (member : row ∈ matrix.resizedRows capacity live) :
    row.words.size = Word.countFor capacity := by
  -- It is resized or new.
  obtain ⟨index, rfl⟩ := Array.mem_ofFn.1 member
  dsimp only
  split
  · exact StateSet.size_resize ..
  · exact Array.size_replicate

/-- The rows of the live states for another capacity, all others empty, their memory granted. -/
def reflow (matrix : TransitionMatrix) (capacity : Nat) (live : StateSet) :
    Except Fault TransitionMatrix :=
  -- The words are counted first, since the product may not be addressable.
  match Capacity.tableWords matrix.alphabetSize capacity with
  | none => .error (.matrixTooLarge capacity matrix.alphabetSize)
  | some _ => .ok {
    alphabetSize := matrix.alphabetSize
    capacity := capacity
    rows := matrix.resizedRows capacity live
    size_rows := Array.size_ofFn
    width_rows := fun _ member => size_of_mem_resizedRows member }

/-- Bytes that the rows take. -/
def heapBytes (matrix : TransitionMatrix) : Nat :=
  matrix.rows.size * Word.countFor matrix.capacity * 8

end TransitionMatrix

end NfaInduction
