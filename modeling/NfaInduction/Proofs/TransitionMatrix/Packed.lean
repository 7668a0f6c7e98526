import Mathlib.Data.Finset.Basic
import NfaInduction.Proofs.TransitionMatrix.Buffer
import NfaInduction.Proofs.TransitionMatrix.Table
import NfaInduction.StateSet.ListingLaws

/-! All rows of a transition matrix in one buffer, at places that are computed, are a table as well. -/

namespace NfaInduction

namespace TransitionMatrix

/-- A transition matrix with all rows in one buffer, each of them as long as the stride. -/
structure Packed where
  /-- The words of all rows. -/
  words : Buffer
  /-- Number of symbols that have a row for each state. -/
  alphabetSize : Nat
  /-- Number of words in a row. -/
  stride : Nat

namespace Packed

/-- The matrix with other words in its rows. -/
@[simps] def withWords (matrix : Packed) (words : Buffer) : Packed := { matrix with words }

/-- A buffer of zeros for all rows, unless it would have too many words. -/
def zeroed (alphabetSize capacity : Nat) : Except Fault Buffer :=
  match Capacity.tableWords alphabetSize capacity with
  | some size => .ok (Array.replicate size 0)
  | none => .error (.matrixTooLarge capacity alphabetSize)

/-- The matrix of empty rows for a capacity, unless it would have too many words. -/
def ofCapacity (alphabetSize capacity : Nat) : Except Fault Packed :=
  (zeroed alphabetSize capacity).map (⟨·, alphabetSize, Word.countFor capacity⟩)

/-- The first place of a row. -/
def offset (matrix : Packed) (state symbol : Nat) : Nat :=
  (state * matrix.alphabetSize + symbol) * matrix.stride

/-- The first place of a row, or nothing if the symbol lies outside the alphabet. -/
def offset? (matrix : Packed) (state symbol : Nat) : Option Nat :=
  if symbol < matrix.alphabetSize then some (matrix.offset state symbol) else none

/-- The words of a row, or nothing if they are not all there. -/
def row? (matrix : Packed) (state symbol : Nat) : Option (Array Word) := do
  let start ← matrix.offset? state symbol
  matrix.words.slice? start (start + matrix.stride)

/-- The matrix with a row changed in place, and what the change tells. -/
def alterRow? {α : Type} (matrix : Packed) (state symbol : Nat)
    (change : Array Word → Option (Array Word × α)) : Option (Packed × α) := do
  let start ← matrix.offset? state symbol
  let (words, told) ← matrix.words.alter? start (start + matrix.stride) change
  return (matrix.withWords words, told)

/-- A row with the word of a state changed by its bit, and whether the bit was set. -/
def alterBit? (change : Word → Word → Word) (state : Nat) (row : Array Word) :
    Option (Array Word × Bool) :=
  let index := state / Word.width
  let bit := Word.bit (state % Word.width)
  if index < row.size then some (row.modify index (change · bit), row.getD index 0 &&& bit != 0)
  else none

/-- Whether a row has a member. -/
def test? (matrix : Packed) (state symbol member : Nat) : Option Bool := do
  let row ← matrix.row? state symbol
  let (_, held) ← alterBit? (fun word _ => word) member row
  return held

/-- The matrix with a member added to a row, and whether it was there. -/
def insert? (matrix : Packed) (state symbol member : Nat) : Option (Packed × Bool) :=
  matrix.alterRow? state symbol (alterBit? (fun word bit => word ||| bit) member)

/-- A row with the bit of one state set, and then that of another one cleared. -/
def redirectBit? (old new : Nat) (row : Array Word) : Option (Array Word × Unit) := do
  let (row, _) ← alterBit? (fun word bit => word ||| bit) new row
  let (row, _) ← alterBit? (fun word bit => word &&& ~~~bit) old row
  return (row, ())

/-- The matrix with a member of a row replaced by another state. -/
def redirect? (matrix : Packed) (state symbol old new : Nat) : Option Packed := do
  let (after, _) ← matrix.alterRow? state symbol (redirectBit? old new)
  return after

/-- The matrix with one row added to another one of the same symbol. -/
def unionRows? (matrix : Packed) (symbol target source : Nat) : Option Packed :=
  if target = source then none
  -- One row cannot be split off from itself.
  else do
    let start ← matrix.offset? target symbol
    let added ← matrix.offset? source symbol
    let words ← matrix.words.addRow? start added matrix.stride
    return matrix.withWords words

/-- The matrix with all words of a state zeroed. -/
def clearState? (matrix : Packed) (state : Nat) : Option Packed := do
  let start ← matrix.offset? state 0
  let (words, _) ← matrix.words.alter? start (start + matrix.alphabetSize * matrix.stride)
    fun piece => some (Array.replicate piece.size 0, ())
  return matrix.withWords words

/-- A buffer with rows of another stride after one row of the matrix is copied there. -/
def copyRow? (matrix : Packed) (stride state : Nat) (words : Buffer) (symbol : Nat) :
    Option Buffer := do
  let old ← matrix.offset? state symbol
  -- The place is computed with the new stride, before the matrix has it.
  let new := (state * matrix.alphabetSize + symbol) * stride
  let row ← matrix.words.slice? old (old + matrix.stride)
  let (words, _) ← words.alter? new (new + matrix.stride) fun piece =>
    if piece.size = row.size then some (row, ()) else none
  return words

/-- The rows of the live states copied to a new buffer, row by row, unless it would be too large. -/
def reflow? (matrix : Packed) (capacity : Nat) (live : StateSet) : Option (Packed × Reply) :=
  let stride := Word.countFor capacity
  match zeroed matrix.alphabetSize capacity with
  | .error fault => some (matrix, .error fault)
  | .ok words => do
    -- Rows of states that are not live stay zero.
    let words ← live.toList.foldlM (fun words state =>
      (List.range matrix.alphabetSize).foldlM (matrix.copyRow? stride state) words) words
    return (⟨words, matrix.alphabetSize, stride⟩, .ok none)

/-- The matrix after a call and the reply, or nothing if a place outside the buffer is looked at. -/
def call? (matrix : Packed) : Call → Option (Packed × Reply)
  | .test state symbol member => do
    return (matrix, .ok (some (← matrix.test? state symbol member)))
  | .insert state symbol member => do
    let (after, held) ← matrix.insert? state symbol member
    return (after, .ok (some held))
  | .redirect state symbol old new => do
    return (← matrix.redirect? state symbol old new, .ok none)
  | .unionRows symbol target source => do
    return (← matrix.unionRows? symbol target source, .ok none)
  | .clearState state => do return (← matrix.clearState? state, .ok none)
  | .reflow capacity live => matrix.reflow? capacity live

/-- Words have the bits of some states. -/
def Records (row : Array Word) (members : Finset Nat) : Prop :=
  ∀ state, (StateSet.mk row).contains state ↔ state ∈ members

/-- A packed matrix has the rows of a table, each of them inside the buffer. -/
structure Stores (matrix : Packed) (table : RowTable) : Prop where
  /-- The alphabet is the same. -/
  alphabetSize : matrix.alphabetSize = table.alphabetSize
  /-- A row has room for all states. -/
  stride : matrix.stride = Word.countFor table.capacity
  /-- The words can be counted, and they are all there. -/
  counted : Capacity.tableWords table.alphabetSize table.capacity = some matrix.words.size
  /-- The rows are there and have the same members. -/
  row : ∀ {state symbol}, table.HasRow state symbol →
    ∃ row, matrix.row? state symbol = some row ∧ Records row (table.row state symbol)

/-- The number of words of a matrix is that of its rows times that of a row. -/
theorem size_of_tableWords {alphabetSize capacity size : Nat}
    (counted : Capacity.tableWords alphabetSize capacity = some size) :
    size = capacity * alphabetSize * Word.countFor capacity := by
  -- Both products stayed small enough to be counted, so nothing of them was cut off.
  simp only [Capacity.tableWords, Capacity.addressable, Option.bind_eq_bind,
    Option.bind_eq_some_iff, Option.ite_none_right_eq_some, Option.some.injEq] at counted
  obtain ⟨_, ⟨_, rfl⟩, _, rfl⟩ := counted
  rfl

variable {matrix : Packed} {table : RowTable} {state symbol other otherSymbol : Nat}
  {row piece : Array Word} {members : Finset Nat}

/-- A symbol of the alphabet has a row. -/
theorem offset?_eq (inAlphabet : symbol < matrix.alphabetSize) :
    matrix.offset? state symbol = some (matrix.offset state symbol) := if_pos inAlphabet

/-- The row of a symbol of the alphabet is a slice of the buffer. -/
theorem row?_eq (inAlphabet : symbol < matrix.alphabetSize) :
    matrix.row? state symbol = matrix.words.slice? (matrix.offset state symbol)
      (matrix.offset state symbol + matrix.stride) := by
  rw [row?, offset?_eq inAlphabet]
  rfl

/-- Rows of a matrix with other words are at the places where they were. -/
theorem row?_withWords {words : Buffer} (inAlphabet : symbol < matrix.alphabetSize) :
    (matrix.withWords words).row? state symbol = words.slice? (matrix.offset state symbol)
      (matrix.offset state symbol + matrix.stride) := row?_eq inAlphabet

/-- The next row starts where a row ends. -/
theorem offset_succ (matrix : Packed) (state symbol : Nat) :
    matrix.offset state (symbol + 1) = matrix.offset state symbol + matrix.stride := by
  rw [offset, offset, ← Nat.add_assoc, Nat.succ_mul]

/-- Behind the last row of a state those of the next one start. -/
theorem offset_alphabetSize (matrix : Packed) (state : Nat) :
    matrix.offset state matrix.alphabetSize = matrix.offset (state + 1) 0 := by
  rw [offset, offset, Nat.succ_mul, Nat.add_zero]

/-- Rows of one state come in the order of their symbols. -/
theorem offset_le_of_symbol (ordered : symbol ≤ otherSymbol) :
    matrix.offset state symbol ≤ matrix.offset state otherSymbol :=
  Nat.mul_le_mul_right _ (Nat.add_le_add_left ordered _)

/-- Rows of states come in the order of the states. -/
theorem offset_le_of_state (ordered : state ≤ other) :
    matrix.offset state 0 ≤ matrix.offset other 0 :=
  Nat.mul_le_mul_right _ (Nat.add_le_add_right (Nat.mul_le_mul_right _ ordered) _)

/-- A row lies between the start of its state and that of the next one. -/
theorem offset_bounds (state : Nat) (inAlphabet : symbol < matrix.alphabetSize) :
    matrix.offset state 0 ≤ matrix.offset state symbol ∧
      matrix.offset state symbol + matrix.stride ≤ matrix.offset (state + 1) 0 := by
  rw [← offset_succ, ← offset_alphabetSize]
  exact ⟨offset_le_of_symbol (Nat.zero_le _), offset_le_of_symbol inAlphabet⟩

/-- Rows of different states or symbols are apart. -/
theorem offset_apart (inAlphabet : symbol < matrix.alphabetSize)
    (otherInAlphabet : otherSymbol < matrix.alphabetSize)
    (different : ¬(other = state ∧ otherSymbol = symbol)) :
    matrix.offset other otherSymbol + matrix.stride ≤ matrix.offset state symbol ∨
      matrix.offset state symbol + matrix.stride ≤ matrix.offset other otherSymbol := by
  -- Rows lie in the order of their states, and those of one state in the order of their symbols.
  have own := offset_bounds state inAlphabet
  have their := offset_bounds other otherInAlphabet
  rcases Nat.lt_trichotomy other state with before | rfl | behind
  · have ends : matrix.offset (other + 1) 0 ≤ matrix.offset state 0 := offset_le_of_state before
    omega
  · rw [← offset_succ, ← offset_succ]
    rcases Nat.lt_or_gt_of_ne fun same => different ⟨rfl, same⟩ with less | more
    · exact .inl (offset_le_of_symbol less)
    · exact .inr (offset_le_of_symbol more)
  · have ends : matrix.offset (state + 1) 0 ≤ matrix.offset other 0 := offset_le_of_state behind
    omega

/-- The word of a member lies inside a row. -/
theorem div_width_lt {capacity member : Nat} (fits : member < capacity) :
    member / Word.width < Word.countFor capacity :=
  (Nat.div_lt_iff_lt_mul (by decide)).2 (Nat.lt_of_lt_of_le fits (Word.le_countFor_mul capacity))

/-- A bit that is set adds its state to a row that has a word for it. -/
theorem alterBit?_set {state : Nat} (present : state / Word.width < row.size) :
    alterBit? (fun word bit => word ||| bit) state row =
      some (((StateSet.mk row).insert state).words, (StateSet.mk row).contains state) :=
  if_pos present

/-- A bit that is cleared removes its state from a row that has a word for it. -/
theorem alterBit?_clear {state : Nat} (present : state / Word.width < row.size) :
    alterBit? (fun word bit => word &&& ~~~bit) state row =
      some (((StateSet.mk row).erase state).words, (StateSet.mk row).contains state) :=
  if_pos present

namespace Records

/-- Zeros record no state. -/
theorem zero (length : Nat) : Records (Array.replicate length 0) ∅ := by
  -- Words that are zero are those of a new set.
  intro state
  have none := StateSet.contains_ofCapacity (length * Word.width) state
  rw [StateSet.ofCapacity, Word.countFor_mul_width] at none
  simp [none]

variable (records : Records row members)
include records

/-- What is told about a state is whether it is recorded. -/
theorem contains_eq (state : Nat) : (StateSet.mk row).contains state = decide (state ∈ members) := by
  rw [Bool.eq_iff_iff, records, decide_eq_true_iff]

/-- A bit that is set records its state. -/
theorem insert {state : Nat} (present : state / Word.width < row.size) :
    Records ((StateSet.mk row).insert state).words (Insert.insert state members) := by
  -- The row is taken for a set with room for the state.
  intro other
  have within : state < (StateSet.mk row).capacity := (StateSet.lt_capacity_iff _ _).2 present
  rw [StateSet.contains_insert within, records.contains_eq]
  simp [or_comm]

/-- A bit that is cleared drops its state. -/
theorem erase (state : Nat) : Records ((StateSet.mk row).erase state).words (members.erase state) := by
  -- The row is taken for a set, where the state may be absent as well.
  intro other
  rw [StateSet.contains_erase, records.contains_eq]
  simp [and_comm]

/-- Words that are combined record the states of both. -/
theorem union {added : Array Word} {others : Finset Nat} (further : Records added others)
    (size : row.size = added.size) :
    Records (row.zipWith (· ||| ·) added) (members ∪ others) := by
  -- Both rows are taken for sets of the same size.
  intro state
  have combined : (StateSet.union ⟨row⟩ ⟨added⟩).contains state = _ :=
    StateSet.contains_union size state
  rw [StateSet.union, records.contains_eq, further.contains_eq] at combined
  simp [combined]

/-- Words behind those that record all of some states record nothing more if they had none else. -/
theorem overwrite {before : Array Word} {others : Finset Nat} (under : Records before others)
    (less : others ⊆ members) (short : row.size ≤ before.size) :
    Records (Buffer.overwrite before 0 row) members := by
  -- A word comes from the new row as far as this one goes, and no member lies beyond it.
  intro state
  have word : (Buffer.overwrite before 0 row).getD (state / Word.width) 0 = _ :=
    Buffer.getD_overwrite (by omega)
  rw [StateSet.contains_eq, word]
  split
  · exact records state
  · rename_i beyond
    have outside : (StateSet.mk row).capacity ≤ state :=
      Nat.le_of_not_lt fun within => beyond ⟨Nat.zero_le _, by
        rw [Nat.zero_add]
        exact (StateSet.lt_capacity_iff _ _).1 within⟩
    have absent : state ∉ members := by
      rw [← records state, StateSet.contains_of_capacity_le outside]
      simp
    exact iff_of_false (fun held => absent (less ((under state).1 held))) absent

end Records

namespace Stores

variable (stores : matrix.Stores table)
include stores

/-- The row of a table is a slice of the buffer. -/
theorem read (has : table.HasRow state symbol) : ∃ row,
    matrix.words.slice? (matrix.offset state symbol)
      (matrix.offset state symbol + matrix.stride) = some row ∧
      row.size = matrix.stride ∧ Records row (table.row state symbol) := by
  -- The rows of the table are those that are stored.
  obtain ⟨row, read, records⟩ := stores.row has
  rw [row?_eq (stores.alphabetSize ▸ has.2)] at read
  exact ⟨row, read, Buffer.size_of_slice? read, records⟩

/-- Words that are written to the front of a row exchange this row. -/
theorem write (has : table.HasRow state symbol)
    (read : matrix.words.slice? (matrix.offset state symbol)
      (matrix.offset state symbol + matrix.stride) = some row)
    (records : Records (Buffer.overwrite row 0 piece) members) (short : piece.size ≤ matrix.stride) :
    (matrix.withWords (matrix.words.overwrite (matrix.offset state symbol) piece)).Stores
      (table.write state symbol members) where
  -- The written row has the new members, and every other row lies apart from it.
  alphabetSize := stores.alphabetSize
  stride := stores.stride
  counted := by
    rw [withWords_words, Buffer.size_overwrite]
    exact stores.counted
  row {other otherSymbol} hasOther := by
    have inAlphabet : symbol < matrix.alphabetSize := stores.alphabetSize ▸ has.2
    have otherInAlphabet : otherSymbol < matrix.alphabetSize := stores.alphabetSize ▸ hasOther.2
    rw [row?_withWords otherInAlphabet, RowTable.write_row]
    by_cases named : other = state ∧ otherSymbol = symbol
    · obtain ⟨rfl, rfl⟩ := named
      rw [if_pos ⟨rfl, rfl⟩]
      exact ⟨_, Buffer.slice?_overwrite_front read, records⟩
    · obtain ⟨kept, stays, same⟩ := stores.row hasOther
      rw [row?_eq otherInAlphabet] at stays
      have apart := offset_apart inAlphabet otherInAlphabet named
      rw [if_neg named]
      refine ⟨kept, (Buffer.slice?_overwrite_of_apart ?_).trans stays, same⟩
      omega

/-- A row that is changed in place as a set of the table is exchanged in the table. -/
theorem alterRow {α : Type} {change : Array Word → Option (Array Word × α)} {told : α}
    (has : table.HasRow state symbol)
    (changed : ∀ row, row.size = matrix.stride → Records row (table.row state symbol) →
      ∃ piece, change row = some (piece, told) ∧ piece.size = row.size ∧ Records piece members) :
    ∃ after, matrix.alterRow? state symbol change = some (after, told) ∧
      after.Stores (table.write state symbol members) := by
  -- The row is read, changed and written back where it was.
  have inAlphabet : symbol < matrix.alphabetSize := stores.alphabetSize ▸ has.2
  obtain ⟨row, read, size, records⟩ := stores.read has
  obtain ⟨piece, done, same, after⟩ := changed row size records
  refine ⟨matrix.withWords (matrix.words.overwrite (matrix.offset state symbol) piece), ?_, ?_⟩
  · simp only [alterRow?, offset?_eq inAlphabet, Buffer.alter?, read, done, Option.bind_eq_bind,
      Option.bind_some, Option.pure_def]
  · refine stores.write has read ?_ (by omega)
    rwa [Buffer.overwrite_eq same]

/-- A member that fits has a word in each row. -/
theorem fits {member : Nat} (below : member < table.capacity) {row : Array Word}
    (size : row.size = matrix.stride) : member / Word.width < row.size := by
  rw [size, stores.stride]
  exact div_width_lt below

/-- A member is told as one of the table. -/
theorem test {member : Nat} (has : table.HasRow state symbol) (below : member < table.capacity) :
    matrix.test? state symbol member = some (decide (member ∈ table.row state symbol)) := by
  -- The row is there and long enough for the bit of the member.
  obtain ⟨row, read, size, records⟩ := stores.read has
  have looked : alterBit? (fun word _ => word) member row = some (_, (StateSet.mk row).contains member) :=
    if_pos (stores.fits below size)
  rw [test?, row?_eq (stores.alphabetSize ▸ has.2), read, ← records.contains_eq]
  simp only [Option.bind_eq_bind, Option.bind_some, looked, Option.pure_def]

/-- A member that is added to a row is added in the table. -/
theorem insert {member : Nat} (has : table.HasRow state symbol) (below : member < table.capacity) :
    ∃ after, matrix.insert? state symbol member =
        some (after, decide (member ∈ table.row state symbol)) ∧
      after.Stores (table.write state symbol (Insert.insert member (table.row state symbol))) := by
  -- The bit lies within the row, so it can be looked up and set.
  refine stores.alterRow has fun row size records => ?_
  have present := stores.fits below size
  refine ⟨((StateSet.mk row).insert member).words, ?_, Array.size_modify, records.insert present⟩
  rw [← records.contains_eq, alterBit?_set present]

/-- A member that is replaced in a row is replaced in the table. -/
theorem redirect {old new : Nat} (has : table.HasRow state symbol) (dropped : old < table.capacity)
    (below : new < table.capacity) (distinct : old ≠ new) :
    ∃ after, matrix.redirect? state symbol old new = some after ∧
      after.Stores (table.write state symbol
        (Insert.insert new ((table.row state symbol).erase old))) := by
  -- The new member is added before the old one is taken out, and they are not the same.
  have changed : ∀ row, row.size = matrix.stride → Records row (table.row state symbol) →
      ∃ piece, redirectBit? old new row = some (piece, ()) ∧ piece.size = row.size ∧
        Records piece (Insert.insert new ((table.row state symbol).erase old)) := by
    intro row size records
    have present := stores.fits below size
    have kept : ((StateSet.mk row).insert new).words.size = row.size := Array.size_modify
    have still := stores.fits dropped (kept.trans size)
    refine ⟨((StateSet.insert ⟨row⟩ new).erase old).words, ?_, Array.size_modify.trans kept, ?_⟩
    · simp only [redirectBit?, alterBit?_set present, alterBit?_clear still, Option.bind_eq_bind,
        Option.bind_some, Option.pure_def]
    · rw [← Finset.erase_insert_of_ne distinct.symm]
      exact (records.insert present).erase old
  obtain ⟨after, done, follows⟩ := stores.alterRow has changed
  exact ⟨after, by rw [redirect?, done]; rfl, follows⟩

/-- A row that is added to another is added in the table, whichever of them comes first. -/
theorem unionRows {target source : Nat} (hasTarget : table.HasRow target symbol)
    (hasSource : table.HasRow source symbol) (distinct : target ≠ source) :
    ∃ after, matrix.unionRows? symbol target source = some after ∧
      after.Stores (table.write target symbol
        (table.row target symbol ∪ table.row source symbol)) := by
  -- The two rows lie apart, so the buffer is split between them in either order.
  have inAlphabet : symbol < matrix.alphabetSize := stores.alphabetSize ▸ hasTarget.2
  obtain ⟨first, read, size, records⟩ := stores.read hasTarget
  obtain ⟨second, added, width, further⟩ := stores.read hasSource
  have apart := offset_apart inAlphabet inAlphabet fun same => distinct same.1
  have same : (first.zipWith (· ||| ·) second).size = first.size := by
    rw [Array.size_zipWith]
    omega
  refine ⟨matrix.withWords (matrix.words.overwrite (matrix.offset target symbol)
    (first.zipWith (· ||| ·) second)), ?_, ?_⟩
  · simp only [unionRows?, if_neg distinct, offset?_eq inAlphabet, Buffer.addRow?_eq apart read added,
      Option.bind_eq_bind, Option.bind_some, Option.pure_def]
  · refine stores.write hasTarget read ?_ (by omega)
    rw [Buffer.overwrite_eq same]
    exact records.union further (by omega)

/-- The rows of all states fill the buffer. -/
theorem offset_capacity : matrix.offset table.capacity 0 = matrix.words.size := by
  rw [size_of_tableWords stores.counted, offset, stores.stride, stores.alphabetSize, Nat.add_zero]

/-- A state whose rows are emptied is emptied in the table. -/
theorem clearState (has : table.HasRow state 0) :
    ∃ after, matrix.clearState? state = some after ∧ after.Stores (table.clearState state) := by
  -- All rows of a state lie side by side, and the rows of any other state lie apart from them.
  have inAlphabet : 0 < matrix.alphabetSize := stores.alphabetSize ▸ has.2
  have ends : matrix.offset (state + 1) 0 ≤ matrix.words.size :=
    stores.offset_capacity ▸ offset_le_of_state has.1
  have span : matrix.offset state 0 + matrix.alphabetSize * matrix.stride =
      matrix.offset (state + 1) 0 := by
    rw [← offset_alphabetSize, offset, offset, Nat.add_zero, Nat.add_mul]
  rw [← span] at ends
  have read := Buffer.slice?_of_le ends
  have size := Buffer.size_of_slice? read
  refine ⟨matrix.withWords (matrix.words.overwrite (matrix.offset state 0)
    (Array.replicate (matrix.alphabetSize * matrix.stride) 0)), ?_, ?_⟩
  · simp only [clearState?, offset?_eq inAlphabet, Buffer.alter?, read, size, Option.bind_eq_bind,
      Option.bind_some, Option.pure_def]
  · refine ⟨stores.alphabetSize, stores.stride, ?_, fun {other otherSymbol} hasOther => ?_⟩
    · rw [withWords_words, Buffer.size_overwrite]
      exact stores.counted
    · have otherInAlphabet : otherSymbol < matrix.alphabetSize := stores.alphabetSize ▸ hasOther.2
      have bounds := offset_bounds other otherInAlphabet
      rw [row?_withWords otherInAlphabet, RowTable.clearState_row]
      by_cases named : other = state
      · subst named
        rw [if_pos rfl]
        exact ⟨_, Buffer.slice?_overwrite_zero bounds.1 (by omega) (by omega), .zero _⟩
      · obtain ⟨kept, stays, same⟩ := stores.row hasOther
        rw [row?_eq otherInAlphabet] at stays
        rw [if_neg named]
        refine ⟨kept, (Buffer.slice?_overwrite_of_apart ?_).trans stays, same⟩
        rw [Array.size_replicate, span]
        rcases Nat.lt_or_gt_of_ne named with before | behind
        · have ends : matrix.offset (other + 1) 0 ≤ matrix.offset state 0 := offset_le_of_state before
          omega
        · have ends : matrix.offset (state + 1) 0 ≤ matrix.offset other 0 := offset_le_of_state behind
          omega

/-- A row that is copied to a matrix of another capacity is there as it was. -/
theorem copyRow {words : Buffer} {capacity : Nat} {done : List (Nat × Nat)}
    (part : Stores ⟨words, matrix.alphabetSize, Word.countFor capacity⟩ (table.copied capacity done))
    (room : table.capacity ≤ capacity) (has : table.HasRow state symbol) :
    ∃ after, matrix.copyRow? (Word.countFor capacity) state words symbol = some after ∧
      Stores ⟨after, matrix.alphabetSize, Word.countFor capacity⟩
        (table.copied capacity (done ++ [(state, symbol)])) := by
  have inAlphabet : symbol < matrix.alphabetSize := stores.alphabetSize ▸ has.2
  have hasTarget : (table.copied capacity done).HasRow state symbol :=
    ⟨Nat.lt_of_lt_of_le has.1 room, has.2⟩
  obtain ⟨row, read, size, records⟩ := stores.read has
  obtain ⟨before, under, width, fewer⟩ := part.read hasTarget
  have short : matrix.stride ≤ Word.countFor capacity := by
    rw [stores.stride]
    exact Word.countFor_le room
  -- The row has not been copied yet, or it is copied once more.
  have less : (table.copied capacity done).row state symbol ⊆ table.row state symbol := by
    rw [RowTable.copied_row]
    split
    · exact Finset.Subset.refl _
    · exact Finset.empty_subset _
  have target := part.write hasTarget under
    (records.overwrite fewer less (by rw [size, width]; exact short)) (by rw [size]; exact short)
  refine ⟨_, ?_, table.copied_append capacity done state symbol ▸ target⟩
  have inside : (state * matrix.alphabetSize + symbol) * Word.countFor capacity + matrix.stride ≤
      words.size := Nat.le_trans (Nat.add_le_add_left short _) (Buffer.of_slice? under).1
  have overwritten := Buffer.slice?_of_le inside
  have same := (Buffer.size_of_slice? overwritten).trans size.symm
  simp only [copyRow?, offset?_eq inAlphabet, read, Buffer.alter?, overwritten, if_pos same,
    Option.bind_eq_bind, Option.bind_some, Option.pure_def]
  rfl

/-- Rows of a state that are copied one after another are all there. -/
theorem copyRows {capacity : Nat} (room : table.capacity ≤ capacity) {symbols : List Nat}
    (present : ∀ symbol ∈ symbols, table.HasRow state symbol) {words : Buffer}
    {done : List (Nat × Nat)}
    (part : Stores ⟨words, matrix.alphabetSize, Word.countFor capacity⟩
      (table.copied capacity done)) :
    ∃ after, symbols.foldlM (matrix.copyRow? (Word.countFor capacity) state) words = some after ∧
      Stores ⟨after, matrix.alphabetSize, Word.countFor capacity⟩
        (table.copied capacity (done ++ symbols.map (state, ·))) := by
  -- The induction goes along the symbols, and the words store what is copied so far.
  induction symbols generalizing words done with
  | nil => exact ⟨words, rfl, by simpa using part⟩
  | cons symbol rest ih =>
    obtain ⟨has, others⟩ := List.forall_mem_cons.1 present
    obtain ⟨middle, first, further⟩ := stores.copyRow part room has
    obtain ⟨after, later, all⟩ := ih others further
    refine ⟨after, by rw [List.foldlM_cons, first]; exact later, ?_⟩
    simpa using all

/-- All rows of some states that are copied state by state are there. -/
theorem copyStates {capacity : Nat} (room : table.capacity ≤ capacity) {states : List Nat}
    (within : ∀ state ∈ states, state < table.capacity) {words : Buffer} {done : List (Nat × Nat)}
    (part : Stores ⟨words, matrix.alphabetSize, Word.countFor capacity⟩
      (table.copied capacity done)) :
    ∃ after, states.foldlM (fun words state => (List.range matrix.alphabetSize).foldlM
        (matrix.copyRow? (Word.countFor capacity) state) words) words = some after ∧
      Stores ⟨after, matrix.alphabetSize, Word.countFor capacity⟩ (table.copied capacity
        (done ++ states.flatMap fun state => (List.range matrix.alphabetSize).map (state, ·))) := by
  -- The induction goes along the states, with all symbols of one of them copied at each step.
  induction states generalizing words done with
  | nil => exact ⟨words, rfl, by simpa using part⟩
  | cons state rest ih =>
    obtain ⟨below, others⟩ := List.forall_mem_cons.1 within
    have rows : ∀ symbol ∈ List.range matrix.alphabetSize, table.HasRow state symbol :=
      fun symbol member => ⟨below, stores.alphabetSize ▸ List.mem_range.1 member⟩
    obtain ⟨middle, first, further⟩ := stores.copyRows room rows part
    obtain ⟨after, later, all⟩ := ih others further
    refine ⟨after, by rw [List.foldlM_cons, first]; exact later, ?_⟩
    simpa using all

omit stores in
/-- A buffer of zeros has the empty rows of a new table. -/
theorem zero {alphabetSize capacity size : Nat}
    (counted : Capacity.tableWords alphabetSize capacity = some size) :
    Stores ⟨Array.replicate size 0, alphabetSize, Word.countFor capacity⟩
      (.zero alphabetSize capacity) where
  -- Every row lies within the words that were counted, all of which are zero.
  alphabetSize := rfl
  stride := rfl
  counted := by
    rw [Array.size_replicate]
    exact counted
  row {state symbol} has := by
    let matrix : Packed := ⟨Array.replicate size 0, alphabetSize, Word.countFor capacity⟩
    have inAlphabet : symbol < matrix.alphabetSize := has.2
    have bounds := offset_bounds state inAlphabet
    have below : matrix.offset (state + 1) 0 ≤ matrix.offset capacity 0 := offset_le_of_state has.1
    have last : matrix.offset capacity 0 = size := (size_of_tableWords counted).symm
    refine ⟨Array.replicate matrix.stride 0, ?_, .zero _⟩
    rw [row?_eq inAlphabet]
    exact Buffer.slice?_replicate (by omega)

/-- A matrix has the rows of any table with the same rows. -/
theorem congr {other : RowTable} (alphabetSize : table.alphabetSize = other.alphabetSize)
    (capacity : table.capacity = other.capacity)
    (rows : ∀ state symbol, table.HasRow state symbol →
      table.row state symbol = other.row state symbol) : matrix.Stores other where
  -- Only the rows that are there are looked at.
  alphabetSize := stores.alphabetSize.trans alphabetSize
  stride := stores.stride.trans (congrArg _ capacity)
  counted := by
    rw [← alphabetSize, ← capacity]
    exact stores.counted
  row {state symbol} has := by
    have before : table.HasRow state symbol := ⟨capacity ▸ has.1, alphabetSize ▸ has.2⟩
    rw [← rows state symbol before]
    exact stores.row before

/-- Live rows that are moved to a buffer of another capacity are kept in the table. -/
theorem reflow {capacity : Nat} {live : StateSet} (room : table.capacity ≤ capacity)
    (active : ∀ state ∈ live.bounded.members, state < table.capacity) :
    ∃ after, matrix.reflow? capacity live = some (after, (table.call (.reflow capacity live)).2) ∧
      after.Stores (table.call (.reflow capacity live)).1 := by
  -- The copy starts with zeros, and it takes over the rows of all live states.
  rw [reflow?, zeroed, RowTable.call, stores.alphabetSize]
  cases counted : Capacity.tableWords table.alphabetSize capacity with
  | none => exact ⟨matrix, rfl, stores⟩
  | some size =>
    have fresh : Stores ⟨Array.replicate size 0, matrix.alphabetSize, Word.countFor capacity⟩
        (table.copied capacity []) := by
      rw [stores.alphabetSize]
      exact zero counted
    have within : ∀ state ∈ live.toList, state < table.capacity := fun state member =>
      active state (StateSet.mem_bounded.2 (StateSet.mem_toList.1 member))
    obtain ⟨words, done, after⟩ := stores.copyStates room within fresh
    rw [stores.alphabetSize] at done after
    refine ⟨⟨words, table.alphabetSize, Word.countFor capacity⟩, ?_, after.congr rfl rfl ?_⟩
    · simp only [done, Option.bind_eq_bind, Option.bind_some, Option.pure_def, Option.isSome_some, if_true]
    · intro state symbol has
      have listed : (state, symbol) ∈ [] ++ live.toList.flatMap
          (fun state => (List.range table.alphabetSize).map (state, ·)) ↔
            state ∈ live.bounded.members := by
        have inAlphabet : symbol < table.alphabetSize := has.2
        simp [StateSet.mem_toList, inAlphabet]
      simp only [RowTable.copied_row, listed]
      rfl

/-- An admitted call on a packed matrix looks at no place outside the buffer, and is made on the table. -/
theorem call? {call : Call} (admitted : table.Admits call) :
    ∃ after, matrix.call? call = some (after, (table.call call).2) ∧
      after.Stores (table.call call).1 := by
  -- There is a case for each call, whose rows are there because it is admitted.
  cases call with
  | test state symbol member =>
    obtain ⟨has, below⟩ := admitted
    exact ⟨matrix, by rw [Packed.call?, stores.test has below]; rfl, stores⟩
  | insert state symbol member =>
    obtain ⟨has, below⟩ := admitted
    obtain ⟨after, done, stored⟩ := stores.insert has below
    exact ⟨after, by rw [Packed.call?, done]; rfl, stored⟩
  | redirect state symbol old new =>
    obtain ⟨has, dropped, below, distinct⟩ := admitted
    obtain ⟨after, done, stored⟩ := stores.redirect has dropped below distinct
    exact ⟨after, by rw [Packed.call?, done]; rfl, stored⟩
  | unionRows symbol target source =>
    obtain ⟨hasTarget, hasSource, distinct⟩ := admitted
    obtain ⟨after, done, stored⟩ := stores.unionRows hasTarget hasSource distinct
    exact ⟨after, by rw [Packed.call?, done]; rfl, stored⟩
  | clearState state =>
    obtain ⟨after, done, stored⟩ := stores.clearState admitted
    exact ⟨after, by rw [Packed.call?, done]; rfl, stored⟩
  | reflow capacity live => exact stores.reflow admitted.1 admitted.2

end Stores

end Packed

/-- A table that is kept in one buffer, and as rows of a matrix. -/
structure Keeps (packed : Packed) (matrix : TransitionMatrix) (table : RowTable) : Prop where
  /-- The buffer has the number of words that the table calls for. -/
  size : Capacity.tableWords table.alphabetSize table.capacity = some packed.words.size
  /-- The matrix has the alphabet and the capacity of the table. -/
  shape : matrix.alphabetSize = table.alphabetSize ∧ matrix.capacity = table.capacity
  /-- Each row of the matrix lies in the buffer. -/
  words : ∀ {state symbol}, table.HasRow state symbol →
    packed.row? state symbol = some (matrix.row state symbol).words
  /-- Each row has the members of the table. -/
  members : ∀ {state symbol}, table.HasRow state symbol →
    (matrix.row state symbol).bounded.members = table.row state symbol

/-- A table that is stored in a buffer and that a matrix follows is kept in both. -/
theorem keeps_of_stores {packed : Packed} {matrix : TransitionMatrix} {table : RowTable}
    (stores : packed.Stores table) (follows : matrix.Follows table) : Keeps packed matrix table where
  -- The row in the buffer and the row of the matrix have the members of the table.
  size := stores.counted
  shape := ⟨follows.alphabetSize, follows.capacity⟩
  words {state symbol} has := by
    obtain ⟨row, read, records⟩ := stores.row has
    rw [Packed.row?_eq (stores.alphabetSize ▸ has.2)] at read ⊢
    have size : row.size = (matrix.row state symbol).words.size := by
      rw [Buffer.size_of_slice? read, matrix.size_row, stores.stride, follows.capacity]
    have same : StateSet.mk row = matrix.row state symbol :=
      StateSet.eq_of_contains size fun member => by
        rw [records.contains_eq]
        exact (follows.contains_eq has member).symm
    rw [read, ← same]
  members {state symbol} has := by
    ext member
    rw [StateSet.mem_bounded]
    exact follows.member has member

/--
Whatever is called for in range, a matrix in one buffer and a matrix of rows have the replies of a
table with independent rows, and keep its rows.

No place outside the buffer is ever looked at. A matrix that would be too large is refused.
-/
theorem table_run {alphabetSize capacity : Nat} {calls : List Call}
    (admitted : (RowTable.zero alphabetSize capacity).AdmitsAll calls) :
    match Capacity.tableWords alphabetSize capacity with
    | none =>
      Packed.ofCapacity alphabetSize capacity = .error (.matrixTooLarge capacity alphabetSize) ∧
        ofCapacity alphabetSize capacity = .error (.matrixTooLarge capacity alphabetSize)
    | some _ =>
      let (table, replies) := (RowTable.zero alphabetSize capacity).run calls
      ∃ packed matrix lastPacked lastMatrix,
        Packed.ofCapacity alphabetSize capacity = .ok packed ∧
        ofCapacity alphabetSize capacity = .ok matrix ∧
        runs? Packed.call? packed calls = some (lastPacked, replies) ∧
        runs? (fun matrix call => some (matrix.call call)) matrix calls = some (lastMatrix, replies) ∧
        Keeps lastPacked lastMatrix table := by
  -- Both representations keep to the table step by step, so they are compared through it.
  rw [Packed.ofCapacity, Packed.zeroed, ofCapacity]
  cases counted : Capacity.tableWords alphabetSize capacity with
  | none => exact ⟨rfl, rfl⟩
  | some size =>
    obtain ⟨lastPacked, packedRun, stores⟩ :=
      runs?_eq (fun stores => stores.call?) (Packed.Stores.zero counted) admitted
    have stepped : ∀ {matrix : TransitionMatrix} {table : RowTable} {call : Call},
        matrix.Follows table → table.Admits call → ∃ next, some (matrix.call call) =
          some (next, (table.call call).2) ∧ next.Follows (table.call call).1 := by
      intro matrix table call follows admitted
      obtain ⟨reply, next⟩ := follows.call admitted
      exact ⟨_, congrArg some (Prod.ext rfl reply), next⟩
    obtain ⟨lastMatrix, matrixRun, follows⟩ :=
      runs?_eq stepped (Follows.zero alphabetSize capacity) admitted
    exact ⟨_, _, lastPacked, lastMatrix, rfl, rfl, packedRun, matrixRun,
      keeps_of_stores stores follows⟩

/-- Rows are united in both orders, redirected, emptied and moved. -/
theorem table_run_moved :
    let live := ((StateSet.ofCapacity 256).insert 0).insert 200
    let calls := [.insert 1 0 10, .insert 9 0 20, .unionRows 0 1 9, .insert 1 1 30, .unionRows 1 9 1,
      .insert 200 0 3, .redirect 200 0 3 255, .clearState 1, .reflow 512 live, .insert 511 1 300,
      .test 200 0 255]
    let (table, replies) := (RowTable.zero 2 256).run calls
    (RowTable.zero 2 256).AdmitsAll calls ∧ ∃ packed matrix lastPacked lastMatrix,
      Packed.ofCapacity 2 256 = .ok packed ∧ ofCapacity 2 256 = .ok matrix ∧
      runs? Packed.call? packed calls = some (lastPacked, replies) ∧
      runs? (fun matrix call => some (matrix.call call)) matrix calls = some (lastMatrix, replies) ∧
      Keeps lastPacked lastMatrix table := by
  -- The calls are admitted, and the words of the matrix can be counted.
  intro live calls
  have admitted : (RowTable.zero 2 256).AdmitsAll calls := by decide +kernel
  have kept := table_run admitted
  have counted : Capacity.tableWords 2 256 = some 2048 := by decide
  rw [counted] at kept
  exact ⟨admitted, kept⟩

end TransitionMatrix

end NfaInduction
