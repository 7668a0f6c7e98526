import NfaInduction.Proofs.Capacity
import NfaInduction.StateSet.Laws
import NfaInduction.TransitionMatrix

/-! Each operation on a transition matrix changes the rows it names and leaves every other row alone. -/

namespace NfaInduction

namespace TransitionMatrix

/-- The capacity of a row is that of the matrix, rounded up to whole words. -/
theorem capacity_row (matrix : TransitionMatrix) (state symbol : Nat) :
    (matrix.row state symbol).capacity = Word.countFor matrix.capacity * Word.width := by
  -- Every row has the same number of words.
  rw [StateSet.capacity, matrix.size_row]

/-- A row has room for every state of the matrix. -/
theorem lt_capacity_row (matrix : TransitionMatrix) {member : Nat}
    (within : member < matrix.capacity) (state symbol : Nat) :
    member < (matrix.row state symbol).capacity := by
  -- The row may have room for a few states more.
  rw [capacity_row]
  exact Nat.lt_of_lt_of_le within (Word.le_countFor_mul matrix.capacity)

/-- A state outside the matrix has empty rows. -/
theorem contains_of_capacity_le {matrix : TransitionMatrix} {state : Nat}
    (beyond : matrix.capacity ≤ state) (symbol member : Nat) :
    matrix.contains state symbol member = false := by
  -- Its rows would lie behind the last row.
  have absent : ¬matrix.rowIndex state symbol < matrix.rows.size := by
    have := Nat.mul_le_mul_right matrix.alphabetSize beyond
    rw [matrix.size_rows, rowIndex]
    omega
  rw [contains, row, dif_neg absent, StateSet.contains_ofCapacity]

/-- The state of a row is recovered from its index. -/
theorem rowIndex_div (matrix : TransitionMatrix) (state : Nat) {symbol : Nat}
    (inAlphabet : symbol < matrix.alphabetSize) :
    matrix.rowIndex state symbol / matrix.alphabetSize = state := by
  -- The rows of a state fill one block, and the symbol is the place in it.
  rw [rowIndex, Nat.mul_comm, Nat.mul_add_div (by omega), Nat.div_eq_of_lt inAlphabet, Nat.add_zero]

/-- Rows of different states or symbols have different places. -/
theorem rowIndex_eq_iff {matrix : TransitionMatrix} {state symbol other otherSymbol : Nat}
    (inAlphabet : symbol < matrix.alphabetSize) (otherInAlphabet : otherSymbol < matrix.alphabetSize) :
    matrix.rowIndex other otherSymbol = matrix.rowIndex state symbol ↔
      other = state ∧ otherSymbol = symbol := by
  -- The index tells the state, and then the symbol is what remains.
  constructor
  · intro same
    have states : other = state := by
      rw [← matrix.rowIndex_div other otherInAlphabet, same, matrix.rowIndex_div state inAlphabet]
    subst states
    exact ⟨rfl, by simpa only [rowIndex, Nat.add_left_cancel_iff] using same⟩
  · rintro ⟨rfl, rfl⟩
    rfl

/-- A state and a symbol inside the matrix have a row there. -/
theorem rowIndex_lt {matrix : TransitionMatrix} {state symbol : Nat}
    (within : state < matrix.capacity) (inAlphabet : symbol < matrix.alphabetSize) :
    matrix.rowIndex state symbol < matrix.rows.size := by
  -- The block of the state ends before the rows do.
  have block := Nat.mul_le_mul_right matrix.alphabetSize (Nat.succ_le_of_lt within)
  rw [Nat.succ_mul] at block
  rw [matrix.size_rows, rowIndex]
  omega

/-- Adding one row to another keeps the alphabet. -/
@[simp] theorem alphabetSize_unionRows (matrix : TransitionMatrix) (symbol target source : Nat) :
    (matrix.unionRows symbol target source).alphabetSize = matrix.alphabetSize := rfl

/-- Adding one row to another keeps the capacity. -/
@[simp] theorem capacity_unionRows (matrix : TransitionMatrix) (symbol target source : Nat) :
    (matrix.unionRows symbol target source).capacity = matrix.capacity := rfl

section Row

variable {matrix : TransitionMatrix} {state symbol : Nat}
  (within : state < matrix.capacity) (inAlphabet : symbol < matrix.alphabetSize)
include within inAlphabet

/-- Changing one row changes that row only. -/
theorem row_modifyRow {change : StateSet → StateSet}
    {keeps : ∀ row, row.words.size = Word.countFor matrix.capacity →
      (change row).words.size = Word.countFor matrix.capacity}
    (other : Nat) {otherSymbol : Nat} (otherInAlphabet : otherSymbol < matrix.alphabetSize) :
    (matrix.modifyRow state symbol change keeps).row other otherSymbol =
      if other = state ∧ otherSymbol = symbol then change (matrix.row state symbol)
      else matrix.row other otherSymbol := by
  -- Places tell rows apart, and a place without a row has none before or after.
  have place : (matrix.modifyRow state symbol change keeps).rowIndex other otherSymbol =
      matrix.rowIndex other otherSymbol := rfl
  have size : (matrix.modifyRow state symbol change keeps).rows.size = matrix.rows.size :=
    Array.size_modify
  have same : matrix.rowIndex other otherSymbol = matrix.rowIndex state symbol ↔ _ :=
    rowIndex_eq_iff inAlphabet otherInAlphabet
  by_cases named : other = state ∧ otherSymbol = symbol
  · obtain ⟨rfl, rfl⟩ := named
    have present := rowIndex_lt within inAlphabet
    rw [if_pos ⟨rfl, rfl⟩, row, dif_pos (by rwa [place, size]), row, dif_pos present]
    simp [modifyRow, Array.getElem_modify, rowIndex]
  · rw [if_neg named]
    by_cases present : matrix.rowIndex other otherSymbol < matrix.rows.size
    · rw [row, dif_pos (by rwa [place, size]), row, dif_pos present]
      have apart : ¬matrix.rowIndex state symbol = matrix.rowIndex other otherSymbol :=
        fun equal => named (same.1 equal.symm)
      rw [rowIndex, rowIndex] at apart
      simp [modifyRow, Array.getElem_modify, rowIndex, apart]
    · rw [row, dif_neg (by rwa [place, size]), row, dif_neg present]
      rfl

/-- Adding a member to a row adds it there only. -/
theorem contains_insert {member : Nat} (fits : member < matrix.capacity) (other : Nat)
    {otherSymbol : Nat} (otherInAlphabet : otherSymbol < matrix.alphabetSize) (tested : Nat) :
    (matrix.insert state symbol member).contains other otherSymbol tested =
      (matrix.contains other otherSymbol tested ||
        decide (other = state ∧ otherSymbol = symbol ∧ tested = member)) := by
  -- Only the row named is changed, and there the state set decides.
  rw [contains, insert, row_modifyRow within inAlphabet other otherInAlphabet]
  by_cases named : other = state ∧ otherSymbol = symbol
  · obtain ⟨rfl, rfl⟩ := named
    rw [if_pos ⟨rfl, rfl⟩, StateSet.contains_insert (matrix.lt_capacity_row fits ..)]
    simp [contains]
  · rw [if_neg named]
    have apart : ¬(other = state ∧ otherSymbol = symbol ∧ tested = member) :=
      fun all => named ⟨all.1, all.2.1⟩
    simp [contains, apart]

/-- Replacing a member of a row by another adds the one, drops the other, and touches no other row. -/
theorem contains_redirect {new : Nat} (fits : new < matrix.capacity) (old other : Nat)
    {otherSymbol : Nat} (otherInAlphabet : otherSymbol < matrix.alphabetSize) (tested : Nat) :
    (matrix.redirect state symbol old new).contains other otherSymbol tested =
      if other = state ∧ otherSymbol = symbol then
        (matrix.contains state symbol tested || decide (tested = new)) && decide (tested ≠ old)
      else matrix.contains other otherSymbol tested := by
  -- Only the row named is changed, and there the state set decides.
  rw [contains, redirect, row_modifyRow within inAlphabet other otherInAlphabet]
  by_cases named : other = state ∧ otherSymbol = symbol
  · rw [if_pos named, if_pos named, StateSet.contains_erase,
      StateSet.contains_insert (matrix.lt_capacity_row fits ..)]
    rfl
  · rw [if_neg named, if_neg named]
    rfl

/-- Adding one row to another changes the other only, to the union of the two. -/
theorem contains_unionRows (source other : Nat) {otherSymbol : Nat}
    (otherInAlphabet : otherSymbol < matrix.alphabetSize) (tested : Nat) :
    (matrix.unionRows symbol state source).contains other otherSymbol tested =
      if other = state ∧ otherSymbol = symbol then
        matrix.contains state symbol tested || matrix.contains source symbol tested
      else matrix.contains other otherSymbol tested := by
  -- Only the row named is changed, and there the state set decides.
  rw [contains, unionRows, row_modifyRow within inAlphabet other otherInAlphabet]
  by_cases named : other = state ∧ otherSymbol = symbol
  · rw [if_pos named, if_pos named, StateSet.contains_union (by simp [size_row])]
    rfl
  · rw [if_neg named, if_neg named]
    rfl

end Row

/-- Replacing one member by another in the rows of several states does so in each of these rows. -/
theorem contains_foldl_redirect {matrix : TransitionMatrix} {symbol old new : Nat}
    (inAlphabet : symbol < matrix.alphabetSize) (fits : new < matrix.capacity)
    {states : List Nat} (within : ∀ state ∈ states, state < matrix.capacity) (other : Nat)
    {otherSymbol : Nat} (otherInAlphabet : otherSymbol < matrix.alphabetSize) (tested : Nat) :
    (states.foldl (fun matrix state => matrix.redirect state symbol old new) matrix).contains
        other otherSymbol tested =
      if other ∈ states ∧ otherSymbol = symbol then
        (matrix.contains other symbol tested || decide (tested = new)) && decide (tested ≠ old)
      else matrix.contains other otherSymbol tested := by
  -- A second replacement in one row would find nothing left to replace.
  induction states generalizing matrix with
  | nil => simp
  | cons state rest hypothesis =>
    have first : state < matrix.capacity := within state List.mem_cons_self
    have later : ∀ state ∈ rest, state < matrix.capacity :=
      fun state member => within state (List.mem_cons_of_mem _ member)
    have own := contains_redirect first inAlphabet fits old other inAlphabet tested
    have any := contains_redirect first inAlphabet fits old other otherInAlphabet tested
    have further := @hypothesis (matrix.redirect state symbol old new) inAlphabet fits later
      otherInAlphabet
    rw [List.foldl_cons, further, own, any]
    by_cases named : otherSymbol = symbol
    · subst named
      by_cases here : other = state
      · subst here
        by_cases again : other ∈ rest
        · simp only [again, List.mem_cons, true_or, and_self, if_true]
          cases decide (tested = new) <;> simp
        · simp [again]
      · simp [here]
    · simp [named]

/-- Replacing members in several rows keeps the alphabet. -/
@[simp] theorem alphabetSize_foldl_redirect (matrix : TransitionMatrix) (symbol old new : Nat)
    (states : List Nat) :
    (states.foldl (fun matrix state => matrix.redirect state symbol old new) matrix).alphabetSize =
      matrix.alphabetSize := by
  -- Each replacement does.
  induction states generalizing matrix with
  | nil => rfl
  | cons state rest hypothesis => exact hypothesis (matrix.redirect state symbol old new)

/-- Replacing members in several rows keeps the capacity. -/
@[simp] theorem capacity_foldl_redirect (matrix : TransitionMatrix) (symbol old new : Nat)
    (states : List Nat) :
    (states.foldl (fun matrix state => matrix.redirect state symbol old new) matrix).capacity =
      matrix.capacity := by
  -- Each replacement does.
  induction states generalizing matrix with
  | nil => rfl
  | cons state rest hypothesis => exact hypothesis (matrix.redirect state symbol old new)

/-- Emptying rows keeps the alphabet and the capacity. -/
theorem shape_clearBelow (matrix : TransitionMatrix) (state count : Nat) :
    (matrix.clearBelow state count).alphabetSize = matrix.alphabetSize ∧
      (matrix.clearBelow state count).capacity = matrix.capacity := by
  -- Each step changes one row.
  induction count with
  | zero => exact ⟨rfl, rfl⟩
  | succ count hypothesis =>
    rw [clearBelow, Nat.fold_succ]
    exact hypothesis

/-- Emptying the rows of a state for some symbols leaves no member in these rows. -/
theorem contains_clearBelow {matrix : TransitionMatrix} {state : Nat}
    (within : state < matrix.capacity) {count : Nat} (bounded : count ≤ matrix.alphabetSize)
    (other : Nat) {otherSymbol : Nat} (otherInAlphabet : otherSymbol < matrix.alphabetSize)
    (tested : Nat) :
    (matrix.clearBelow state count).contains other otherSymbol tested =
      (matrix.contains other otherSymbol tested &&
        !decide (other = state ∧ otherSymbol < count)) := by
  -- Each step empties the row of one more symbol.
  induction count with
  | zero => simp [clearBelow]
  | succ count hypothesis =>
    have earlier := hypothesis (by omega)
    obtain ⟨alphabet, capacity⟩ := matrix.shape_clearBelow state count
    rw [clearBelow, Nat.fold_succ, ← clearBelow, contains,
      row_modifyRow (by rwa [capacity]) (by omega) other (by omega)]
    by_cases named : other = state ∧ otherSymbol = count
    · rw [if_pos named, StateSet.contains_clear]
      simp [named]
    · have same : (other = state ∧ otherSymbol < count + 1) ↔
          (other = state ∧ otherSymbol < count) := by omega
      rw [if_neg named, ← contains, earlier, decide_eq_decide.2 same]

/-- Emptying a state keeps the alphabet. -/
@[simp] theorem alphabetSize_clearState (matrix : TransitionMatrix) (state : Nat) :
    (matrix.clearState state).alphabetSize = matrix.alphabetSize :=
  (matrix.shape_clearBelow state matrix.alphabetSize).1

/-- Emptying a state keeps the capacity. -/
@[simp] theorem capacity_clearState (matrix : TransitionMatrix) (state : Nat) :
    (matrix.clearState state).capacity = matrix.capacity :=
  (matrix.shape_clearBelow state matrix.alphabetSize).2

/-- Emptying a state leaves no member in its rows and touches no other row. -/
theorem contains_clearState {matrix : TransitionMatrix} {state : Nat}
    (within : state < matrix.capacity) (other : Nat) {otherSymbol : Nat}
    (otherInAlphabet : otherSymbol < matrix.alphabetSize) (tested : Nat) :
    (matrix.clearState state).contains other otherSymbol tested =
      (matrix.contains other otherSymbol tested && decide (other ≠ state)) := by
  -- The rows of all its symbols are emptied.
  have emptied := contains_clearBelow within (Nat.le_refl _) other otherInAlphabet tested
  rw [clearState, emptied]
  simp [otherInAlphabet]

/-- A resized matrix has the resized rows, the capacity asked for and the same alphabet. -/
theorem shape_reflow {matrix grown : TransitionMatrix} {capacity : Nat} {live : StateSet}
    (reflowed : matrix.reflow capacity live = .ok grown) :
    grown.alphabetSize = matrix.alphabetSize ∧ grown.capacity = capacity ∧
      grown.rows = matrix.resizedRows capacity live := by
  -- The new matrix is built for them.
  rw [reflow] at reflowed
  split at reflowed <;> cases reflowed
  exact ⟨rfl, rfl, rfl⟩

/-- Members of a row are read from its place, where a missing row has none. -/
theorem contains_getD {matrix : TransitionMatrix} (capacity state symbol tested : Nat) :
    (matrix.rows.getD (matrix.rowIndex state symbol) (.ofCapacity capacity)).contains tested =
      matrix.contains state symbol tested := by
  -- The row is there, or neither side has a member.
  rw [contains, row, Array.getD]
  split
  · rfl
  · rw [StateSet.contains_ofCapacity, StateSet.contains_ofCapacity]

/-- The row at a place, or a new one in its stead, is no wider than those of a larger matrix. -/
theorem capacity_getD_le {matrix : TransitionMatrix} {capacity : Nat}
    (room : matrix.capacity ≤ capacity) (index : Nat) :
    (matrix.rows.getD index (.ofCapacity capacity)).capacity ≤
      Word.countFor capacity * Word.width := by
  -- Rows have the words that the capacity of their matrix calls for.
  rw [Array.getD]
  split
  · rename_i present
    show matrix.rows[index].words.size * Word.width ≤ _
    rw [matrix.width_rows _ (Array.getElem_mem present)]
    exact Nat.mul_le_mul_right _ (Word.countFor_le room)
  · exact Nat.le_of_eq (StateSet.capacity_ofCapacity capacity)

/-- A row that is kept has its members in a larger set, and one that is dropped has none. -/
theorem contains_resizedRow {row : StateSet} {capacity : Nat}
    (room : row.capacity ≤ Word.countFor capacity * Word.width) (live : Bool) (tested : Nat) :
    (if live && row.isNonempty then row.resize capacity
      else StateSet.ofCapacity capacity).contains tested = (live && row.contains tested) := by
  -- A row without members is dropped without a loss.
  cases held : row.contains tested with
  | false =>
    split
    · rw [StateSet.contains_resize, held, Bool.false_and, Bool.and_false]
    · rw [StateSet.contains_ofCapacity, Bool.and_false]
  | true =>
    have nonempty : row.isNonempty := StateSet.isNonempty_iff.2 ⟨tested, held⟩
    have before := StateSet.lt_capacity_of_contains held
    have after : tested < (row.resize capacity).capacity := by
      rw [StateSet.capacity, StateSet.size_resize]
      omega
    cases live with
    | false => simp
    | true => simp [nonempty, StateSet.contains_resize, held, after]

/-- The rows of the live states keep their members in a larger matrix, and all others are empty. -/
theorem contains_reflow {matrix grown : TransitionMatrix} {capacity : Nat} {live : StateSet}
    (room : matrix.capacity ≤ capacity) (reflowed : matrix.reflow capacity live = .ok grown)
    (state : Nat) {symbol : Nat} (inAlphabet : symbol < matrix.alphabetSize) (tested : Nat) :
    grown.contains state symbol tested =
      (live.contains state && matrix.contains state symbol tested) := by
  obtain ⟨alphabet, size, rows⟩ := shape_reflow reflowed
  by_cases within : state < capacity
  · -- The state and its row are found again from the index of the row.
    have place : grown.rowIndex state symbol = matrix.rowIndex state symbol := by
      rw [rowIndex, rowIndex, alphabet]
    have present : grown.rowIndex state symbol < grown.rows.size :=
      rowIndex_lt (by omega) (by omega)
    rw [contains, row, dif_pos present]
    simp only [rows, resizedRows, Array.getElem_ofFn, place, matrix.rowIndex_div state inAlphabet]
    rw [contains_resizedRow (capacity_getD_le room _), contains_getD]
  · -- A state without rows after the change had none before.
    rw [contains_of_capacity_le (by omega), contains_of_capacity_le (by omega), Bool.and_false]

end TransitionMatrix

end NfaInduction
