import NfaInduction.StateSet.Basic
import NfaInduction.WordLaws

/-! What each operation on a state set does to its members, and what each test says about them. -/

namespace NfaInduction

namespace StateSet

/-- A state is a member where its bit in its word is set. -/
theorem contains_eq (set : StateSet) (state : Nat) :
    set.contains state =
      Word.hasBit (set.words.getD (state / Word.width) 0) (state % Word.width) := rfl

/-- The offset of a state lies inside its word. -/
theorem offset_lt (state : Nat) : state % Word.width < Word.width := Nat.mod_lt _ (by decide)

/-- A state inside a block of consecutive states belongs to the word of the block. -/
theorem div_width {position : Nat} (within : position < Word.width) (index : Nat) :
    (index * Word.width + position) / Word.width = index := by
  -- The blocks before it have whole words, and the rest is less than a word.
  rw [Nat.mul_comm, Nat.mul_add_div (by decide), Nat.div_eq_of_lt within, Nat.add_zero]

/-- A state inside a block of consecutive states has its place there as its offset. -/
theorem mod_width {position : Nat} (within : position < Word.width) (index : Nat) :
    (index * Word.width + position) % Word.width = position := by
  -- Whole words leave no remainder.
  rw [Nat.mul_comm, Nat.mul_add_mod, Nat.mod_eq_of_lt within]

/-- A state lies below the capacity exactly if its word is there. -/
theorem lt_capacity_iff (set : StateSet) (state : Nat) :
    state < set.capacity ↔ state / Word.width < set.words.size := by
  -- Words are blocks of consecutive states.
  rw [capacity, Nat.div_lt_iff_lt_mul (by decide)]

/-- No state beyond the capacity is a member. -/
theorem contains_of_capacity_le {set : StateSet} {state : Nat} (beyond : set.capacity ≤ state) :
    set.contains state = false := by
  -- There is no word for it.
  have outside : ¬state / Word.width < set.words.size := by
    rw [← lt_capacity_iff]
    omega
  rw [contains_eq, Array.getD, dif_neg outside, Word.hasBit_zero]

/-- A member lies below the capacity. -/
theorem lt_capacity_of_contains {set : StateSet} {state : Nat} (member : set.contains state) :
    state < set.capacity := by
  -- No state beyond it is a member.
  refine Nat.lt_of_not_le fun beyond => ?_
  simp [contains_of_capacity_le beyond] at member

/-- Sets of one capacity with the same members are the same. -/
theorem eq_of_contains {left right : StateSet} (size : left.words.size = right.words.size)
    (same : ∀ state, left.contains state = right.contains state) : left = right := by
  -- The bits of each word are the members it stands for.
  obtain ⟨leftWords⟩ := left
  obtain ⟨rightWords⟩ := right
  congr 1
  refine Array.ext size fun index inLeft inRight => Word.eq_of_hasBit fun position within => ?_
  have agreed := same (index * Word.width + position)
  simp only [contains_eq, div_width within, mod_width within] at agreed
  simpa [Array.getD, inLeft, inRight] using agreed

/-- A new set has room for whole words of states. -/
theorem capacity_ofCapacity (states : Nat) :
    (ofCapacity states).capacity = Word.countFor states * Word.width := by
  -- Each of the words is there from the start.
  simp [capacity, ofCapacity]

/-- A new set has no member. -/
@[simp] theorem contains_ofCapacity (states state : Nat) :
    (ofCapacity states).contains state = false := by
  -- Every word is zero, and so is what stands for a missing one.
  have zero : (ofCapacity states).words.getD (state / Word.width) 0 = 0 := by
    simp [ofCapacity, Array.getD]
  rw [contains_eq, zero, Word.hasBit_zero]

/-- Adding a state keeps the capacity. -/
@[simp] theorem capacity_insert (set : StateSet) (state : Nat) :
    (set.insert state).capacity = set.capacity := by
  -- One word is changed in its place.
  simp [capacity, insert]

/-- Removing a state keeps the capacity. -/
@[simp] theorem capacity_erase (set : StateSet) (state : Nat) :
    (set.erase state).capacity = set.capacity := by
  -- One word is changed in its place.
  simp [capacity, erase]

/-- Members are removed without the capacity. -/
@[simp] theorem capacity_clear (set : StateSet) : set.clear.capacity = set.capacity := by
  -- Clearing keeps the number of words.
  rw [capacity, size_clear, capacity]

/-- A changed word is seen at its place. -/
theorem getD_modify_self {words : Array Word} {index : Nat} (present : index < words.size)
    (change : Word → Word) :
    (words.modify index change).getD index 0 = change (words.getD index 0) := by
  -- The word is there before and after the change.
  simp [Array.getD, present, Array.getElem_modify]

/-- A change of one word is not seen at the place of another. -/
theorem getD_modify_of_ne {words : Array Word} {index other : Nat} (distinct : other ≠ index)
    (change : Word → Word) : (words.modify index change).getD other 0 = words.getD other 0 := by
  -- The other word stays as it is, or stays missing.
  by_cases present : other < words.size
  · simp [Array.getD, present, Array.getElem_modify, Ne.symm distinct]
  · simp [Array.getD, present]

/-- Two states of one word are the same if their offsets are. -/
theorem offset_eq_iff {left right : Nat} (block : left / Word.width = right / Word.width) :
    left % Word.width = right % Word.width ↔ left = right := by
  -- A state is put together from its word and its offset.
  constructor
  · intro same
    rw [← Nat.div_add_mod left Word.width, block, same, Nat.div_add_mod]
  · rintro rfl
    rfl

/-- Adding a state below the capacity adds that member only. -/
theorem contains_insert {set : StateSet} {state : Nat} (within : state < set.capacity)
    (other : Nat) :
    (set.insert state).contains other = (set.contains other || decide (other = state)) := by
  -- States of other words are untouched, and in the same word only the offset counts.
  have present := (lt_capacity_iff set state).1 within
  by_cases block : other / Word.width = state / Word.width
  · rw [contains_eq, contains_eq, block, insert, getD_modify_self present,
      Word.hasBit_or (offset_lt other), Word.hasBit_bit (offset_lt other) (offset_lt state)]
    simp [offset_eq_iff block]
  · have distinct : other ≠ state := fun same => block (by rw [same])
    rw [contains_eq, contains_eq, insert, getD_modify_of_ne block]
    simp [distinct]

/-- Removing a state removes that member only. -/
theorem contains_erase (set : StateSet) (state other : Nat) :
    (set.erase state).contains other = (set.contains other && decide (other ≠ state)) := by
  -- States of other words are untouched, and in the same word only the offset counts.
  by_cases block : other / Word.width = state / Word.width
  · by_cases within : other < set.capacity
    · have present := (lt_capacity_iff set other).1 within
      rw [contains_eq, contains_eq, erase, ← block, getD_modify_self present,
        Word.hasBit_and (offset_lt other), Word.hasBit_not (offset_lt other),
        Word.hasBit_bit (offset_lt other) (offset_lt state)]
      simp [offset_eq_iff block]
    · have outside : set.capacity ≤ other := Nat.le_of_not_lt within
      rw [contains_of_capacity_le outside, contains_of_capacity_le (by simpa using outside)]
      rfl
  · have distinct : other ≠ state := fun same => block (by rw [same])
    rw [contains_eq, contains_eq, erase, getD_modify_of_ne block]
    simp [distinct]

/-- Letting one state stand for another removes the other and keeps what either of them was. -/
theorem contains_absorb {set : StateSet} {kept : Nat} (within : kept < set.capacity)
    (absorbed other : Nat) :
    (set.absorb kept absorbed).contains other =
      ((set.contains other && decide (other ≠ absorbed)) ||
        (decide (other = kept) && (set.contains kept || set.contains absorbed))) := by
  -- The kept state is added last, and only if one of the two was a member.
  have room : kept < (set.erase absorbed).capacity := by simpa using within
  cases flagged : set.contains kept || set.contains absorbed with
  | false => simp [absorb, flagged, contains_erase]
  | true => simp [absorb, flagged, contains_erase, contains_insert room]

/-- A combined word is seen at its place, and a missing word counts as zero. -/
theorem getD_zipWith {combine : Word → Word → Word} (zero : combine 0 0 = 0)
    {left right : Array Word} (size : left.size = right.size) (index : Nat) :
    (left.zipWith combine right).getD index 0 =
      combine (left.getD index 0) (right.getD index 0) := by
  -- Both words are there or neither is.
  by_cases present : index < left.size
  · simp [Array.getD, present, ← size]
  · simp [Array.getD, present, ← size, zero]

/-- The intersection has the members of both sets. -/
theorem contains_inter {left right : StateSet} (size : left.words.size = right.words.size)
    (state : Nat) :
    (left.inter right).contains state = (left.contains state && right.contains state) := by
  -- Words are combined bit by bit.
  rw [contains_eq, inter, getD_zipWith rfl size, Word.hasBit_and (offset_lt state)]
  rfl

/-- The union has the members of either set. -/
theorem contains_union {left right : StateSet} (size : left.words.size = right.words.size)
    (state : Nat) :
    (left.union right).contains state = (left.contains state || right.contains state) := by
  -- Words are combined bit by bit.
  rw [contains_eq, union, getD_zipWith rfl size, Word.hasBit_or (offset_lt state)]
  rfl

/-- The symmetric difference has the members of exactly one set. -/
theorem contains_symmDiff {left right : StateSet} (size : left.words.size = right.words.size)
    (state : Nat) :
    (left.symmDiff right).contains state = (left.contains state != right.contains state) := by
  -- Words are combined bit by bit.
  rw [contains_eq, symmDiff, getD_zipWith rfl size, Word.hasBit_xor (offset_lt state)]
  rfl

/-- Resizing keeps the members that there is room for. -/
theorem contains_resize (set : StateSet) (capacity state : Nat) :
    (set.resize capacity).contains state =
      (set.contains state && decide (state < (set.resize capacity).capacity)) := by
  -- A word that there is room for is taken over, or zero if it is new.
  by_cases room : state < (set.resize capacity).capacity
  · have present := (lt_capacity_iff _ state).1 room
    have word : (set.resize capacity).words.getD (state / Word.width) 0 =
        set.words.getD (state / Word.width) 0 := by
      rw [Array.getD, dif_pos present]
      exact Array.getElem_ofFn ..
    rw [contains_eq, word, contains_eq, decide_eq_true room, Bool.and_true]
  · rw [contains_of_capacity_le (Nat.le_of_not_lt room), decide_eq_false room, Bool.and_false]

/-- Growing keeps the members. -/
@[simp] theorem contains_grow (set : StateSet) (capacity state : Nat) :
    (set.grow capacity).contains state = set.contains state := by
  -- There is room for every state that there was room for.
  rw [grow, contains_resize]
  cases member : set.contains state with
  | false => rfl
  | true =>
    have before := lt_capacity_of_contains member
    have room : state < (set.resize (max set.capacity capacity)).capacity := by
      rw [StateSet.capacity, size_resize, Word.countFor, Word.width]
      have := Nat.le_max_left set.capacity capacity
      omega
    rw [decide_eq_true room]
    rfl

/-- A word other than zero has a member of the set. -/
theorem exists_contains {set : StateSet} {index : Nat}
    (nonzero : ¬set.words.getD index 0 = 0) :
    ∃ state, state / Word.width = index ∧ set.contains state := by
  -- A set bit of the word tells the offset of a member.
  obtain ⟨position, small, held⟩ := Word.exists_hasBit nonzero
  refine ⟨index * Word.width + position, div_width small index, ?_⟩
  rw [contains_eq, div_width small, mod_width small]
  exact held

/-- A set is not empty exactly if it has a member. -/
theorem isNonempty_iff {set : StateSet} : set.isNonempty ↔ ∃ state, set.contains state := by
  -- A word is zero exactly if no state of it is a member.
  rw [isNonempty, Array.any_eq_true]
  constructor
  · rintro ⟨index, present, nonzero⟩
    have held : ¬set.words.getD index 0 = 0 := by
      simpa [Array.getD, present] using nonzero
    obtain ⟨state, _, member⟩ := exists_contains held
    exact ⟨state, member⟩
  · rintro ⟨state, member⟩
    have present := (lt_capacity_iff set state).1 (lt_capacity_of_contains member)
    refine ⟨state / Word.width, present, ?_⟩
    rw [bne_iff_ne]
    intro zero
    simp [contains_eq, Array.getD, present, zero] at member

/-- The set cleared of its members has none. -/
@[simp] theorem contains_clear (set : StateSet) (state : Nat) :
    set.clear.contains state = false := by
  -- The set had none, or every word is zero.
  rw [clear]
  split
  · rename_i none
    rw [isEmpty, Bool.not_eq_true', Bool.eq_false_iff, ne_eq, isNonempty_iff] at none
    exact Bool.eq_false_iff.2 fun member => none ⟨state, member⟩
  · have zero : (Array.replicate set.words.size (0 : Word)).getD (state / Word.width) 0 = 0 := by
      simp [Array.getD]
    rw [contains_eq, zero, Word.hasBit_zero]

/-- Some combined word is not zero exactly if the combined set has a member. -/
theorem anyWord_iff {combine : Word → Word → Word} {left right : StateSet}
    (size : left.words.size = right.words.size) :
    anyWord combine left right ↔
      ∃ state, (StateSet.mk (left.words.zipWith combine right.words)).contains state := by
  -- The words scanned are those of the combined set.
  rw [← isNonempty_iff, anyWord, isNonempty, Nat.any_eq_finRange_any, List.any_eq_true,
    Array.any_eq_true]
  constructor
  · rintro ⟨⟨index, present⟩, _, nonzero⟩
    have partner : index < right.words.size := size ▸ present
    exact ⟨index, by rw [Array.size_zipWith]; omega, by
      simpa [Array.getD, partner] using nonzero⟩
  · rintro ⟨index, present, nonzero⟩
    have both : index < left.words.size ∧ index < right.words.size := by
      simpa [Nat.lt_min] using present
    exact ⟨⟨index, both.1⟩, List.mem_finRange _, by
      simpa [Array.getD, both.2] using nonzero⟩

/-- Sets meet exactly if they share a member. -/
theorem meets_iff {left right : StateSet} (size : left.words.size = right.words.size) :
    left.meets right ↔ ∃ state, left.contains state ∧ right.contains state := by
  -- The combined set is the intersection.
  rw [meets, anyWord_iff size]
  exact exists_congr fun state => by
    rw [← Bool.and_eq_true, ← contains_inter size, inter]

/-- Sets cover something exactly if either has a member. -/
theorem covers_iff {left right : StateSet} (size : left.words.size = right.words.size) :
    left.covers right ↔ ∃ state, left.contains state ∨ right.contains state := by
  -- The combined set is the union.
  rw [covers, anyWord_iff size]
  exact exists_congr fun state => by
    rw [← Bool.or_eq_true, ← contains_union size, union]

/-- Sets differ exactly if some state is a member of one only. -/
theorem differs_iff {left right : StateSet} (size : left.words.size = right.words.size) :
    left.differs right ↔ ∃ state, left.contains state ≠ right.contains state := by
  -- The combined set is the symmetric difference.
  rw [differs, anyWord_iff size]
  exact exists_congr fun state => by
    rw [← bne_iff_ne, ← contains_symmDiff size, symmDiff]

end StateSet

end NfaInduction
