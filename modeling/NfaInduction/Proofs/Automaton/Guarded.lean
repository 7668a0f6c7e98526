import NfaInduction.Proofs.Automaton.Match
import NfaInduction.StateSet.Checked

/-! Matching reads no row that is not there and combines no sets of different capacities. -/

namespace NfaInduction

/-- The row of a state and a symbol, or a fault if it would lie behind the last row. -/
def TransitionMatrix.row? (matrix : TransitionMatrix) (state symbol : Nat) : Except Fault StateSet :=
  if matrix.rowIndex state symbol < matrix.rows.size then .ok (matrix.row state symbol)
  else .error (.stateOutOfRange state matrix.capacity)

namespace Automaton

/-- States reached by a symbol, where each row must be there and have the room of the others. -/
def reached? (automaton : Automaton) (current : StateSet) (symbol : Nat) : Except Fault StateSet :=
  current.toList.foldlM
    (fun next state => do next.union? (← automaton.successors.row? state symbol))
    (StateSet.ofCapacity automaton.maxStates)

/-- Matching where everything that is read must be there. -/
def matchFrom? (automaton : Automaton) (current : StateSet) : List Symbol → Except Fault Bool
  | [] => current.meets? automaton.finals
  | symbol :: rest => do
    let symbol ← automaton.symbolIndex symbol
    if current.isEmpty then return false
    automaton.matchFrom? (← automaton.reached? current symbol) rest

/-- Whether the automaton accepts a word, where everything that is read must be there. -/
def isMatch? (automaton : Automaton) (word : List Symbol) : Except Fault Bool :=
  automaton.matchFrom? automaton.initial word

variable {automaton : Automaton}

/-- Sets with as many words are united. -/
theorem union?_eq {left right : StateSet} (size : left.words.size = right.words.size) :
    left.union? right = .ok (left.union right) := by
  rw [StateSet.union?, StateSet.alongside, if_pos size]

/-- Rows of states below the capacity are there, and have the room of all states. -/
theorem reached?_eq (shaped : automaton.Shaped) {current : StateSet} {symbol : Nat}
    (room : current.capacity = automaton.maxStates) (inAlphabet : symbol < automaton.alphabetSize) :
    automaton.reached? current symbol = .ok (automaton.reached current symbol) := by
  -- The rows that are asked for are those of states with room.
  have present : ∀ state ∈ current.toList, automaton.successors.row? state symbol =
      .ok (automaton.successors.row state symbol) := by
    intro state member
    have within : state < automaton.successors.capacity := by
      rw [shaped.successors, ← room]
      exact StateSet.lt_capacity_of_contains (StateSet.mem_toList.1 member)
    rw [TransitionMatrix.row?, if_pos (TransitionMatrix.rowIndex_lt within inAlphabet)]
  have size : ∀ state, (StateSet.ofCapacity automaton.maxStates).words.size =
      (automaton.successors.row state symbol).words.size := by
    intro state
    rw [TransitionMatrix.size_row, shaped.successors]
    exact Array.size_replicate
  rw [reached?, reached]
  -- Each union has the room of the set before it.
  generalize StateSet.ofCapacity automaton.maxStates = start at size ⊢
  generalize current.toList = states at present ⊢
  induction states generalizing start with
  | nil => rfl
  | cons state rest ih =>
    obtain ⟨first, others⟩ := List.forall_mem_cons.1 present
    rw [List.foldlM_cons, List.foldl_cons, bind_of_ok first, bind_of_ok (union?_eq (size state))]
    refine ih _ (fun other => ?_) others
    rw [← size other]
    simp [StateSet.union, size state]

/-- The guards are never needed, whatever the word. -/
theorem matchFrom?_eq (shaped : automaton.Shaped) {current : StateSet}
    (room : current.capacity = automaton.maxStates) (word : List Symbol) :
    automaton.matchFrom? current word = automaton.matchFrom current word := by
  -- Every set met has the automaton's size, so no guard fails at any symbol of the word.
  induction word generalizing current with
  | nil =>
    have size : current.words.size = automaton.finals.words.size :=
      StateSet.size_eq_of_capacity_eq (room.trans shaped.finals.symm)
    rw [matchFrom?, matchFrom, StateSet.meets?, StateSet.alongside, if_pos size]
  | cons symbol rest ih =>
    rw [matchFrom?, matchFrom, symbolIndex]
    split
    · rename_i inAlphabet
      rw [bind_of_ok rfl, bind_of_ok rfl, bind_of_ok (reached?_eq shaped room inAlphabet),
        ih (contains_reached shaped current symbol.toNat).1]
    · rfl

/-- The guards are never needed, so that matching has no fault besides that of an unknown symbol. -/
theorem Shaped.isMatch?_eq (shaped : automaton.Shaped) (word : List Symbol) :
    automaton.isMatch? word = automaton.isMatch word :=
  matchFrom?_eq shaped shaped.initial word

end Automaton

end NfaInduction
