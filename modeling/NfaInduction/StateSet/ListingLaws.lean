import NfaInduction.StateSet.Laws

/-! The listing of a state set names exactly its members, and the scan finds the first state absent. -/

namespace NfaInduction

namespace StateSet

/-- The listed members of some words are those of each word, moved up to its place. -/
theorem mem_membersFrom {words : List Word} {base state : Nat} :
    state ∈ membersFrom base words ↔
      ∃ index, ∃ within : index < words.length, ∃ position, position < Word.width ∧
        Word.hasBit words[index] position ∧ state = base + index * Word.width + position := by
  -- Every further word starts sixty-four states farther.
  induction words generalizing base with
  | nil => simp [membersFrom]
  | cons word rest hypothesis =>
    rw [membersFrom, List.mem_append, Word.mem_positionsFrom, hypothesis]
    constructor
    · rintro (⟨position, small, held, rfl⟩ | ⟨index, within, position, small, held, rfl⟩)
      · exact ⟨0, by simp, position, small, held, by simp⟩
      · exact ⟨index + 1, by simpa using within, position, small, held, by
          rw [Nat.succ_mul]; omega⟩
    · rintro ⟨index, within, position, small, held, rfl⟩
      cases index with
      | zero => exact .inl ⟨position, small, held, by simp⟩
      | succ index =>
        exact .inr ⟨index, by simpa using within, position, small, held, by
          rw [Nat.succ_mul]; omega⟩

/-- The listing names exactly the members. -/
theorem mem_toList {set : StateSet} {state : Nat} : state ∈ set.toList ↔ set.contains state := by
  -- A state is put together from its word and its offset.
  rw [toList_eq, mem_membersFrom]
  constructor
  · rintro ⟨index, within, position, small, held, rfl⟩
    have present : index < set.words.size := by simpa using within
    rw [Nat.zero_add, contains_eq, div_width small, mod_width small]
    simpa [Array.getD, present] using held
  · intro member
    have present := (lt_capacity_iff set state).1 (lt_capacity_of_contains member)
    refine ⟨state / Word.width, by simpa using present, state % Word.width, offset_lt state, ?_, ?_⟩
    · simpa [contains_eq, Array.getD, present] using member
    · rw [Nat.zero_add, Nat.mul_comm, Nat.div_add_mod]

/-- The members of some words are listed in ascending order, each of them once. -/
theorem pairwise_membersFrom (base : Nat) (words : List Word) :
    (membersFrom base words).Pairwise (· < ·) := by
  -- The members of a word lie below the place where the next word starts.
  induction words generalizing base with
  | nil => exact .nil
  | cons word rest hypothesis =>
    refine List.pairwise_append.2 ⟨Word.pairwise_positionsFrom base word, hypothesis _, ?_⟩
    intro low inWord high inRest
    obtain ⟨position, small, _, rfl⟩ := Word.mem_positionsFrom.1 inWord
    obtain ⟨index, _, offset, _, _, rfl⟩ := mem_membersFrom.1 inRest
    omega

/-- Members are listed in ascending order, each of them once. -/
theorem pairwise_toList (set : StateSet) : set.toList.Pairwise (· < ·) := by
  -- The members recorded in the words are.
  rw [toList_eq]
  exact pairwise_membersFrom 0 set.words.toList

/-- As many members are listed as set bits are added up. -/
theorem length_membersFrom (base start : Nat) (words : List Word) :
    start + (membersFrom base words).length =
      words.foldl (fun total word => total + Word.count word) start := by
  -- Each word lists as many positions as it has set bits.
  induction words generalizing base start with
  | nil => rfl
  | cons word rest hypothesis =>
    rw [membersFrom, List.length_append, Word.length_positionsFrom, List.foldl_cons, ← hypothesis,
      Nat.add_assoc]

/-- The size is the number of members. -/
theorem length_toList (set : StateSet) : set.toList.length = set.size := by
  -- Both add up the set bits of the words.
  rw [size, ← Array.foldl_toList, ← length_membersFrom 0, Nat.zero_add, toList_eq]

/-- The first absent state is the lowest one below the capacity that is not a member. -/
theorem firstAbsent?_eq_some {set : StateSet} {state : Nat}
    (found : set.firstAbsent? = some state) :
    state < set.capacity ∧ ¬set.contains state ∧ ∀ lower < state, set.contains lower := by
  -- Words before the first that is not full are full, and its complement has a lowest bit.
  rw [firstAbsent?, Option.map_eq_some_iff] at found
  obtain ⟨index, first, rfl⟩ := found
  obtain ⟨short, full⟩ := Array.findFinIdx?_eq_some_iff.1 first
  have nonzero : ¬~~~set.words[index] = 0 := by
    intro zero
    have complement : set.words[index] = ~~~0 := by rw [← zero, UInt64.not_not]
    exact absurd complement (bne_iff_ne.1 short)
  have inside := Word.lowest_lt nonzero
  refine ⟨?_, ?_, fun lower below => ?_⟩
  · rw [lt_capacity_iff, div_width inside]
    exact index.isLt
  · have absent := Word.hasBit_lowest nonzero
    rw [Word.hasBit_not inside] at absent
    rw [contains_eq, div_width inside, mod_width inside]
    simpa [Array.getD] using absent
  · have place : lower / Word.width ≤ index := by
      rw [← div_width inside index.val]
      exact Nat.div_le_div_right (Nat.le_of_lt below)
    rcases Nat.lt_or_eq_of_le place with before | same
    · -- An earlier word is full.
      have present : lower / Word.width < set.words.size := Nat.lt_trans before index.isLt
      have whole := full ⟨lower / Word.width, present⟩ before
      have equal : set.words[lower / Word.width] = Word.full := by simpa using whole
      rw [contains_eq, Array.getD, dif_pos present]
      simpa [equal] using Word.hasBit_full (offset_lt lower)
    · -- In the word itself the bits under the lowest clear one are set.
      have small : lower % Word.width < Word.lowest (~~~set.words[index]) := by
        have := Nat.div_add_mod lower Word.width
        rw [same, Nat.mul_comm] at this
        omega
      rw [contains_eq, same]
      cases held : Word.hasBit (set.words.getD index 0) (lower % Word.width) with
      | true => rfl
      | false =>
        have clear : Word.hasBit (~~~set.words[index]) (lower % Word.width) := by
          rw [Word.hasBit_not (offset_lt lower)]
          simpa [Array.getD] using held
        have := Word.lowest_le clear
        omega

/-- There is no first absent state exactly if every state below the capacity is a member. -/
theorem firstAbsent?_eq_none_iff {set : StateSet} :
    set.firstAbsent? = none ↔ ∀ state < set.capacity, set.contains state := by
  -- All words are full then, and a full word lacks no state.
  constructor
  · intro none state within
    rw [firstAbsent?, Option.map_eq_none_iff, Array.findFinIdx?_eq_none_iff] at none
    have present := (lt_capacity_iff set state).1 within
    have equal : set.words[state / Word.width] = Word.full := by
      simpa using none _ (Array.getElem_mem present)
    rw [contains_eq, Array.getD, dif_pos present]
    simpa [equal] using Word.hasBit_full (offset_lt state)
  · intro whole
    cases found : set.firstAbsent? with
    | none => rfl
    | some state =>
      obtain ⟨within, absent, _⟩ := firstAbsent?_eq_some found
      exact absurd (whole state within) absent

end StateSet

end NfaInduction
