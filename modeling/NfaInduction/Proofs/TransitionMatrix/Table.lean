import NfaInduction.Proofs.StateSet.Bounded
import NfaInduction.Proofs.TransitionMatrix

/-! A transition matrix is a table of finite sets, one for each state and symbol, whatever is done to it. -/

namespace NfaInduction

namespace TransitionMatrix

/-- A call on a transition matrix. -/
inductive Call where
  /-- Tells whether a row has a member. -/
  | test (state symbol member : Nat)
  /-- Adds a member to a row and tells whether it was there. -/
  | insert (state symbol member : Nat)
  /-- Replaces a member of a row by another state. -/
  | redirect (state symbol old new : Nat)
  /-- Adds the row of one state to that of another. -/
  | unionRows (symbol target source : Nat)
  /-- Empties the rows of a state. -/
  | clearState (state : Nat)
  /-- Moves the rows of the live states to a matrix of another capacity. -/
  | reflow (capacity : Nat) (live : StateSet)
deriving DecidableEq

/-- The answer to a call, if there is anything to tell, or the fault that it was refused with. -/
abbrev Reply : Type := Except Fault (Option Bool)

/-- The matrix after a call, and the reply. -/
def call (matrix : TransitionMatrix) : Call → TransitionMatrix × Reply
  | .test state symbol member => (matrix, .ok (some (matrix.contains state symbol member)))
  | .insert state symbol member =>
    (matrix.insert state symbol member, .ok (some (matrix.contains state symbol member)))
  | .redirect state symbol old new => (matrix.redirect state symbol old new, .ok none)
  | .unionRows symbol target source => (matrix.unionRows symbol target source, .ok none)
  | .clearState state => (matrix.clearState state, .ok none)
  | .reflow capacity live =>
    match matrix.reflow capacity live with
    | .ok moved => (moved, .ok none)
    | .error fault => (matrix, .error fault)

/-- What carries out some calls, and the reply to each, unless one of them fails. -/
def runs? {kind : Type} (step : kind → Call → Option (kind × Reply)) (start : kind) :
    List Call → Option (kind × List Reply)
  | [] => some (start, [])
  | call :: rest => do
    let (next, reply) ← step start call
    let (last, replies) ← runs? step next rest
    return (last, reply :: replies)

end TransitionMatrix

/-- A finite set of states for each state and symbol, without words or places. -/
structure RowTable where
  /-- Number of symbols. -/
  alphabetSize : Nat
  /-- Number of states. -/
  capacity : Nat
  /-- The states in a row. -/
  row : Nat → Nat → Finset Nat

namespace RowTable

open TransitionMatrix (Call Reply)

/-- The table of empty rows. -/
def zero (alphabetSize capacity : Nat) : RowTable := ⟨alphabetSize, capacity, fun _ _ => ∅⟩

/-- The table with one row exchanged. -/
@[simps] def write (table : RowTable) (state symbol : Nat) (members : Finset Nat) : RowTable where
  alphabetSize := table.alphabetSize
  capacity := table.capacity
  row other otherSymbol :=
    if other = state ∧ otherSymbol = symbol then members else table.row other otherSymbol

/-- The table with all rows of a state emptied. -/
@[simps] def clearState (table : RowTable) (state : Nat) : RowTable where
  alphabetSize := table.alphabetSize
  capacity := table.capacity
  row other symbol := if other = state then ∅ else table.row other symbol

/-- The table of another capacity with the rows of the live states, and every other row empty. -/
@[simps] def reflow (table : RowTable) (capacity : Nat) (live : Finset Nat) : RowTable where
  alphabetSize := table.alphabetSize
  capacity := capacity
  row state symbol := if state ∈ live then table.row state symbol else ∅

/-- The table of another capacity with some of the rows, and every other row empty. -/
@[simps] def copied (table : RowTable) (capacity : Nat) (done : List (Nat × Nat)) : RowTable where
  alphabetSize := table.alphabetSize
  capacity := capacity
  row state symbol := if (state, symbol) ∈ done then table.row state symbol else ∅

/-- With one more row, a row is exchanged. -/
theorem copied_append (table : RowTable) (capacity : Nat) (done : List (Nat × Nat))
    (state symbol : Nat) : (table.copied capacity done).write state symbol (table.row state symbol) =
      table.copied capacity (done ++ [(state, symbol)]) := by
  -- A pair that is copied once more has the row that it had.
  refine congrArg (RowTable.mk _ _) (funext₂ fun other otherSymbol => ?_)
  by_cases named : other = state ∧ otherSymbol = symbol
  · simp [named]
  · simp [named]

/-- The table after a call, and the reply. -/
def call (table : RowTable) : Call → RowTable × Reply
  | .test state symbol member => (table, .ok (some (decide (member ∈ table.row state symbol))))
  | .insert state symbol member =>
    (table.write state symbol (insert member (table.row state symbol)),
      .ok (some (decide (member ∈ table.row state symbol))))
  | .redirect state symbol old new =>
    (table.write state symbol (insert new ((table.row state symbol).erase old)), .ok none)
  | .unionRows symbol target source =>
    (table.write target symbol (table.row target symbol ∪ table.row source symbol), .ok none)
  | .clearState state => (table.clearState state, .ok none)
  | .reflow capacity live =>
    if (Capacity.tableWords table.alphabetSize capacity).isSome then
      (table.reflow capacity live.bounded.members, .ok none)
    else (table, .error (.matrixTooLarge capacity table.alphabetSize))

/-- A state and a symbol that a table has a row for. -/
def HasRow (table : RowTable) (state symbol : Nat) : Prop :=
  state < table.capacity ∧ symbol < table.alphabetSize

/-- States and symbols in a call are in range, different where they have to be, and no room is lost. -/
def Admits (table : RowTable) : Call → Prop
  | .test state symbol member => table.HasRow state symbol ∧ member < table.capacity
  | .insert state symbol member => table.HasRow state symbol ∧ member < table.capacity
  | .redirect state symbol old new =>
    table.HasRow state symbol ∧ old < table.capacity ∧ new < table.capacity ∧ old ≠ new
  | .unionRows symbol target source =>
    table.HasRow target symbol ∧ table.HasRow source symbol ∧ target ≠ source
  | .clearState state => table.HasRow state 0
  | .reflow capacity live =>
    table.capacity ≤ capacity ∧ ∀ state ∈ live.bounded.members, state < table.capacity

/-- Each of some calls in a row is admitted when it comes. -/
def AdmitsAll (table : RowTable) : List Call → Prop
  | [] => True
  | call :: rest => table.Admits call ∧ (table.call call).1.AdmitsAll rest

/-- Whether there is a row for a state and a symbol is seen from the numbers of them. -/
instance (table : RowTable) (state symbol : Nat) : Decidable (table.HasRow state symbol) :=
  inferInstanceAs (Decidable (_ ∧ _))

/-- Whether a call is admitted is seen from its states and symbols. -/
instance (table : RowTable) : DecidablePred table.Admits
  | .test .. => inferInstanceAs (Decidable (_ ∧ _))
  | .insert .. => inferInstanceAs (Decidable (_ ∧ _))
  | .redirect .. => inferInstanceAs (Decidable (_ ∧ _ ∧ _ ∧ _ ≠ _))
  | .unionRows .. => inferInstanceAs (Decidable (_ ∧ _ ∧ _ ≠ _))
  | .clearState _ => inferInstanceAs (Decidable (HasRow _ _ _))
  | .reflow .. => inferInstanceAs (Decidable (_ ∧ ∀ _ ∈ _, _))

/-- Whether calls are admitted is seen call by call. -/
instance decidableAdmitsAll (table : RowTable) : DecidablePred table.AdmitsAll
  | [] => inferInstanceAs (Decidable True)
  | call :: rest =>
    have := decidableAdmitsAll (table.call call).1 rest
    inferInstanceAs (Decidable (_ ∧ _))

/-- The table after some calls, and the reply to each of them. -/
def run (table : RowTable) : List Call → RowTable × List Reply
  | [] => (table, [])
  | call :: rest =>
    let (next, reply) := table.call call
    let (last, replies) := next.run rest
    (last, reply :: replies)

end RowTable

namespace TransitionMatrix

/-- What follows a table in each admitted call follows it in a run of them, and none fails. -/
theorem runs?_eq {kind : Type} {step : kind → Call → Option (kind × Reply)}
    {follows : kind → RowTable → Prop}
    (stepped : ∀ {item table call}, follows item table → table.Admits call →
      ∃ next, step item call = some (next, (table.call call).2) ∧ follows next (table.call call).1)
    {calls : List Call} {item : kind} {table : RowTable} (start : follows item table)
    (admitted : table.AdmitsAll calls) :
    ∃ last, runs? step item calls = some (last, (table.run calls).2) ∧
      follows last (table.run calls).1 := by
  -- The induction goes along the calls, and each call hands on what the step lemma keeps.
  induction calls generalizing item table with
  | nil => exact ⟨item, rfl, start⟩
  | cons call rest ih =>
    obtain ⟨next, done, after⟩ := stepped start admitted.1
    obtain ⟨last, others, final⟩ := ih after admitted.2
    refine ⟨last, ?_, final⟩
    simp only [runs?, done, Option.bind_eq_bind, Option.bind_some, others]
    rfl

/-- A matrix has the rows of a table. -/
structure Follows (matrix : TransitionMatrix) (table : RowTable) : Prop where
  /-- The alphabet is the same. -/
  alphabetSize : matrix.alphabetSize = table.alphabetSize
  /-- The capacity is the same. -/
  capacity : matrix.capacity = table.capacity
  /-- The rows have the same members. -/
  member : ∀ {state symbol}, table.HasRow state symbol → ∀ member,
    matrix.contains state symbol member ↔ member ∈ table.row state symbol

namespace Follows

/-- A new matrix has the empty rows of a new table. -/
theorem zero (alphabetSize capacity : Nat) :
    (TransitionMatrix.zero alphabetSize capacity).Follows (.zero alphabetSize capacity) where
  -- No row has a member yet.
  alphabetSize := rfl
  capacity := rfl
  member _ member := by
    rw [contains, row]
    split
    · simp [TransitionMatrix.zero, RowTable.zero]
    · simp [RowTable.zero]

variable {matrix : TransitionMatrix} {table : RowTable} (follows : matrix.Follows table)
include follows

/-- A matrix whose row is changed as that of a table follows the table with this row exchanged. -/
theorem write {changed : TransitionMatrix} {state symbol : Nat} {members : Finset Nat}
    (alphabetSize : changed.alphabetSize = matrix.alphabetSize)
    (capacity : changed.capacity = matrix.capacity)
    (member : ∀ {other otherSymbol}, table.HasRow other otherSymbol → ∀ member,
      changed.contains other otherSymbol member ↔
        if other = state ∧ otherSymbol = symbol then member ∈ members
        else matrix.contains other otherSymbol member) :
    changed.Follows (table.write state symbol members) where
  -- The written row is given, and for every other row nothing has changed.
  alphabetSize := alphabetSize.trans follows.alphabetSize
  capacity := capacity.trans follows.capacity
  member {other otherSymbol} has tested := by
    rw [member has, RowTable.write_row]
    split
    · rfl
    · exact follows.member has tested

/-- A member is told as one of the table. -/
theorem contains_eq {state symbol : Nat} (has : table.HasRow state symbol) (member : Nat) :
    matrix.contains state symbol member = decide (member ∈ table.row state symbol) := by
  rw [Bool.eq_iff_iff, follows.member has, decide_eq_true_iff]

/-- A row of the table is a row of the matrix. -/
theorem hasRow {state symbol : Nat} (has : table.HasRow state symbol) :
    state < matrix.capacity ∧ symbol < matrix.alphabetSize := by
  rwa [follows.capacity, follows.alphabetSize]

/-- A member that is added to a row is added in the table. -/
theorem insert {state symbol member : Nat} (has : table.HasRow state symbol)
    (fits : member < table.capacity) : (matrix.insert state symbol member).Follows
      (table.write state symbol (Insert.insert member (table.row state symbol))) := by
  -- A member that is tested is the new one or one of those before, and other rows are as before.
  obtain ⟨within, inAlphabet⟩ := follows.hasRow has
  refine follows.write rfl rfl fun {other otherSymbol} hasOther tested => ?_
  rw [contains_insert within inAlphabet (follows.capacity ▸ fits) other (follows.hasRow hasOther).2]
  by_cases named : other = state ∧ otherSymbol = symbol
  · obtain ⟨rfl, rfl⟩ := named
    simp [follows.contains_eq has, or_comm]
  · have apart : ¬(other = state ∧ otherSymbol = symbol ∧ tested = member) :=
      fun all => named ⟨all.1, all.2.1⟩
    simp [named, apart]

/-- A member that is replaced in a row is replaced in the table. -/
theorem redirect {state symbol old new : Nat} (has : table.HasRow state symbol)
    (fits : new < table.capacity) (distinct : old ≠ new) :
    (matrix.redirect state symbol old new).Follows
      (table.write state symbol (Insert.insert new ((table.row state symbol).erase old))) := by
  obtain ⟨within, inAlphabet⟩ := follows.hasRow has
  refine follows.write rfl rfl fun {other otherSymbol} hasOther tested => ?_
  rw [contains_redirect within inAlphabet (follows.capacity ▸ fits) old other
    (follows.hasRow hasOther).2]
  by_cases named : other = state ∧ otherSymbol = symbol
  · rw [if_pos named, if_pos named, follows.contains_eq has]
    -- The new member is not the one that is dropped after it.
    by_cases same : tested = new
    · simp [same, distinct.symm]
    · simp [same, and_comm]
  · rw [if_neg named, if_neg named]

/-- A row that is added to another is added in the table. -/
theorem unionRows {symbol target source : Nat} (hasTarget : table.HasRow target symbol)
    (hasSource : table.HasRow source symbol) : (matrix.unionRows symbol target source).Follows
      (table.write target symbol (table.row target symbol ∪ table.row source symbol)) := by
  -- A member of the target row was in either of the rows, and other rows are as before.
  obtain ⟨within, inAlphabet⟩ := follows.hasRow hasTarget
  refine follows.write rfl rfl fun {other otherSymbol} hasOther tested => ?_
  rw [contains_unionRows within inAlphabet source other (follows.hasRow hasOther).2]
  by_cases named : other = target ∧ otherSymbol = symbol
  · simp [named, follows.contains_eq hasTarget, follows.contains_eq hasSource]
  · simp [named]

/-- A state whose rows are emptied is emptied in the table. -/
theorem clearState {state : Nat} (within : state < table.capacity) :
    (matrix.clearState state).Follows (table.clearState state) where
  -- The rows of the state have no members, and other rows are as before.
  alphabetSize := (alphabetSize_clearState matrix state).trans follows.alphabetSize
  capacity := (capacity_clearState matrix state).trans follows.capacity
  member {other symbol} has tested := by
    rw [contains_clearState (follows.capacity ▸ within) other (follows.hasRow has).2,
      follows.contains_eq has, RowTable.clearState_row]
    by_cases named : other = state
    · simp [named]
    · simp [named]

/-- Live rows that are moved to a matrix of another capacity are kept in the table. -/
theorem reflow {moved : TransitionMatrix} {capacity : Nat} {live : StateSet}
    (room : table.capacity ≤ capacity)
    (active : ∀ state ∈ live.bounded.members, state < table.capacity)
    (reflowed : matrix.reflow capacity live = .ok moved) :
    moved.Follows (table.reflow capacity live.bounded.members) := by
  -- Rows of live states are moved, and the other ones have no members left.
  obtain ⟨alphabet, larger, _⟩ := shape_reflow reflowed
  refine ⟨alphabet.trans follows.alphabetSize, larger, fun {state symbol} has tested => ?_⟩
  rw [contains_reflow (follows.capacity ▸ room) reflowed state (follows.alphabetSize ▸ has.2),
    RowTable.reflow_row]
  by_cases lives : state ∈ live.bounded.members
  · have before : table.HasRow state symbol := ⟨active state lives, has.2⟩
    simp [lives, StateSet.mem_bounded.1 lives, follows.contains_eq before]
  · have absent : live.contains state = false := by simpa using lives
    simp [lives, absent]

/-- An admitted call on a matrix does what it does to the table that the matrix follows. -/
theorem call {call : Call} (admitted : table.Admits call) :
    (matrix.call call).2 = (table.call call).2 ∧
      (matrix.call call).1.Follows (table.call call).1 := by
  -- There is a case for each call, and only a larger capacity can be refused.
  have told {state symbol : Nat} (has : table.HasRow state symbol) (member : Nat) :
      (.ok (some (matrix.contains state symbol member)) : Reply) =
        .ok (some (decide (member ∈ table.row state symbol))) := by
    rw [follows.contains_eq has]
  cases call with
  | test state symbol member => exact ⟨told admitted.1 member, follows⟩
  | insert state symbol member =>
    obtain ⟨has, fits⟩ := admitted
    exact ⟨told has member, follows.insert has fits⟩
  | redirect state symbol old new =>
    obtain ⟨has, _, fits, distinct⟩ := admitted
    exact ⟨rfl, follows.redirect has fits distinct⟩
  | unionRows symbol target source =>
    obtain ⟨hasTarget, hasSource, _⟩ := admitted
    exact ⟨rfl, follows.unionRows hasTarget hasSource⟩
  | clearState state => exact ⟨rfl, follows.clearState admitted.1⟩
  | reflow larger live =>
    obtain ⟨room, active⟩ := admitted
    rw [TransitionMatrix.call, RowTable.call, ← follows.alphabetSize]
    cases counted : Capacity.tableWords matrix.alphabetSize larger with
    | none =>
      have refused :
          matrix.reflow larger live = .error (.matrixTooLarge larger matrix.alphabetSize) := by
        rw [TransitionMatrix.reflow, counted]
      simp only [refused]
      exact ⟨rfl, follows⟩
    | some words =>
      obtain ⟨moved, reflowed⟩ : ∃ moved, matrix.reflow larger live = .ok moved := by
        rw [TransitionMatrix.reflow, counted]
        exact ⟨_, rfl⟩
      simp only [reflowed]
      exact ⟨rfl, follows.reflow room active reflowed⟩

end Follows

end TransitionMatrix

end NfaInduction
