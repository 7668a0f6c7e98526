import Mathlib.Data.Finset.Image
import Mathlib.Data.Finset.Sort
import NfaInduction.Proofs.Capacity
import NfaInduction.StateSet.ListingLaws

/-! A state set stands for a capacity and a finite set of states below it. -/

namespace NfaInduction

/-- A capacity of whole words takes these words. -/
theorem Word.countFor_mul_width (words : Nat) : countFor (words * width) = words := by
  unfold countFor width
  omega

/-- Whole words with room for more states are as many as there were, or as these states take. -/
theorem Word.countFor_max (words states : Nat) :
    countFor (max (words * width) states) = max words (countFor states) := by
  unfold countFor width
  omega

/-- A finite set of states below a capacity, without words or bits. -/
structure BoundedSet where
  /-- Number of states there is room for. -/
  capacity : Nat
  /-- There is room for whole words of states. -/
  whole : Word.width ∣ capacity
  /-- The states in the set. -/
  members : Finset Nat
  /-- There is room for each of them. -/
  below : ∀ state ∈ members, state < capacity

namespace BoundedSet

/-- Sets with the same capacity and the same members are the same. -/
@[ext] theorem ext {left right : BoundedSet} (capacity : left.capacity = right.capacity)
    (members : ∀ state, state ∈ left.members ↔ state ∈ right.members) : left = right := by
  -- The bounds on the members are proofs, of which there is only one.
  obtain ⟨leftCapacity, _, leftMembers, _⟩ := left
  obtain ⟨rightCapacity, _, rightMembers, _⟩ := right
  obtain rfl : leftCapacity = rightCapacity := capacity
  obtain rfl : leftMembers = rightMembers := Finset.ext members
  rfl

/-- The least capacity with whole words of states and room for the states below a number. -/
def roundUp (states : Nat) : Nat := Word.countFor states * Word.width

/-- The empty set with room for some states. -/
@[simps] def ofCapacity (states : Nat) : BoundedSet where
  capacity := roundUp states
  whole := Nat.dvd_mul_left _ _
  members := ∅
  below := by simp

/-- The set with a state more. -/
@[simps] def add (set : BoundedSet) (state : Nat) (within : state < set.capacity) : BoundedSet where
  capacity := set.capacity
  whole := set.whole
  members := insert state set.members
  below := Finset.forall_mem_insert _ _ _ |>.2 ⟨within, set.below⟩

/-- The set without a state. -/
@[simps] def remove (set : BoundedSet) (state : Nat) : BoundedSet where
  capacity := set.capacity
  whole := set.whole
  members := set.members.erase state
  below other member := set.below other (Finset.mem_of_mem_erase member)

/-- The set without `absorbed`, and with `kept` if either of the two was a member. -/
def absorb (set : BoundedSet) (kept absorbed : Nat) (within : kept < set.capacity) : BoundedSet :=
  if kept ∈ set.members ∨ absorbed ∈ set.members then (set.remove absorbed).add kept within
  else set.remove absorbed

/-- The set without members and with the same capacity. -/
@[simps] def clear (set : BoundedSet) : BoundedSet where
  capacity := set.capacity
  whole := set.whole
  members := ∅
  below := by simp

/-- The set with room for some states at least, and the same members. -/
@[simps] def grow (set : BoundedSet) (states : Nat) : BoundedSet where
  capacity := max set.capacity (roundUp states)
  whole := by
    rcases Nat.le_total set.capacity (roundUp states) with less | more
    · rw [Nat.max_eq_right less]
      exact Nat.dvd_mul_left _ _
    · rw [Nat.max_eq_left more]
      exact set.whole
  members := set.members
  below state member := Nat.lt_of_lt_of_le (set.below state member) (Nat.le_max_left _ _)

/-- States in both of two sets. -/
@[simps] def inter (left right : BoundedSet) : BoundedSet where
  capacity := left.capacity
  whole := left.whole
  members := left.members ∩ right.members
  below state member := left.below state (Finset.mem_of_mem_inter_left member)

section Pair

variable (left right : BoundedSet) (same : left.capacity = right.capacity)

/-- States in either of two sets. -/
@[simps] def union : BoundedSet where
  capacity := left.capacity
  whole := left.whole
  members := left.members ∪ right.members
  below state member := by
    rcases Finset.mem_union.1 member with first | second
    · exact left.below state first
    · exact same ▸ right.below state second

/-- States in exactly one of two sets. -/
@[simps] def symmDiff : BoundedSet where
  capacity := left.capacity
  whole := left.whole
  members := (left.members \ right.members) ∪ (right.members \ left.members)
  below state member := by
    rcases Finset.mem_union.1 member with first | second
    · exact left.below state (Finset.mem_sdiff.1 first).1
    · exact same ▸ right.below state (Finset.mem_sdiff.1 second).1

end Pair

end BoundedSet

namespace StateSet

/-- The capacity and the members of a set. -/
def bounded (set : StateSet) : BoundedSet where
  capacity := set.capacity
  whole := Nat.dvd_mul_left _ _
  members := {state ∈ Finset.range set.capacity | set.contains state}
  below _ member := Finset.mem_range.1 (Finset.mem_filter.1 member).1

/-- The capacity is that of the set. -/
@[simp] theorem capacity_bounded (set : StateSet) : set.bounded.capacity = set.capacity := rfl

/-- The members are those of the set. -/
@[simp] theorem mem_bounded {set : StateSet} {state : Nat} :
    state ∈ set.bounded.members ↔ set.contains state := by
  simp only [bounded, Finset.mem_filter, Finset.mem_range, and_iff_right_iff_imp]
  exact lt_capacity_of_contains

/-- A state set lists its members as the finite set of them does in ascending order. -/
theorem toList_eq_sort {set : StateSet} {states : Finset Nat}
    (held : ∀ state, set.contains state ↔ state ∈ states) : set.toList = states.sort := by
  -- Two ascending lists with the same members are the same.
  refine List.Pairwise.eq_of_mem_iff set.pairwise_toList (Finset.sortedLT_sort states).pairwise ?_
  intro state
  rw [mem_toList, held, Finset.mem_sort]

/-- A state set lists the members that it stands for in ascending order. -/
theorem toList_eq_sort_members (set : StateSet) : set.toList = set.bounded.members.sort :=
  toList_eq_sort fun _ => mem_bounded.symm

variable {set left right : StateSet}

/-- Sets are the same exactly if their capacities and their members are. -/
theorem bounded_inj : left.bounded = right.bounded ↔ left = right := by
  -- Sets of one size are the same if they have the same members.
  refine ⟨fun same => ?_, congrArg bounded⟩
  have size : left.words.size = right.words.size :=
    Nat.eq_of_mul_eq_mul_right (by decide) (congrArg BoundedSet.capacity same)
  refine eq_of_contains size fun state => Bool.eq_iff_iff.2 ?_
  rw [← mem_bounded, same, mem_bounded]

/-- A new set is empty. -/
theorem bounded_ofCapacity (states : Nat) : (ofCapacity states).bounded = .ofCapacity states := by
  ext1
  · exact capacity_ofCapacity states
  · simp

/-- A state that there is room for is added. -/
theorem bounded_insert {state : Nat} (within : state < set.bounded.capacity) :
    (set.insert state).bounded = set.bounded.add state within := by
  ext1
  · simp
  · simp [contains_insert within, or_comm]

/-- A state is removed. -/
theorem bounded_erase (set : StateSet) (state : Nat) :
    (set.erase state).bounded = set.bounded.remove state := by
  ext1
  · simp
  · simp [contains_erase, and_comm]

/-- Clearing leaves the capacity and no members. -/
theorem bounded_clear (set : StateSet) : set.clear.bounded = set.bounded.clear := by
  ext1
  · simp
  · simp

/-- A state that there is room for stands for itself and another one afterwards. -/
theorem bounded_absorb {kept : Nat} (within : kept < set.bounded.capacity) (absorbed : Nat) :
    (set.absorb kept absorbed).bounded = set.bounded.absorb kept absorbed within := by
  -- Whether the kept state is a member is decided before the absorbed one is removed.
  have room : kept < (set.erase absorbed).bounded.capacity := by
    rwa [capacity_bounded, capacity_erase]
  rw [absorb, BoundedSet.absorb]
  by_cases flagged : kept ∈ set.bounded.members ∨ absorbed ∈ set.bounded.members
  · have held : (set.contains kept || set.contains absorbed) = true := by simpa using flagged
    simp only [if_pos flagged, held, if_true, bounded_insert room, bounded_erase]
  · have free : (set.contains kept || set.contains absorbed) = false := by simpa using flagged
    simp only [if_neg flagged, free, bounded_erase, Bool.false_eq_true, if_false]

/-- There is more room for the same members. -/
theorem bounded_grow (set : StateSet) (states : Nat) :
    (set.grow states).bounded = set.bounded.grow states := by
  ext1
  · simp only [capacity_bounded, BoundedSet.grow_capacity, BoundedSet.roundUp, capacity, grow,
      size_resize, Word.countFor_max, Nat.mul_max_mul_right]
  · simp

section Pair

variable (size : left.words.size = right.words.size)
include size

/-- The capacities of sets with as many words are the same. -/
theorem capacity_eq_of_size : left.bounded.capacity = right.bounded.capacity :=
  congrArg (· * Word.width) size

/-- The members of both sets are left. -/
theorem bounded_inter : (left.inter right).bounded = left.bounded.inter right.bounded := by
  ext1
  · simp [inter, capacity, size]
  · simp [contains_inter size]

/-- The members of either set are there. -/
theorem bounded_union :
    (left.union right).bounded = left.bounded.union right.bounded (capacity_eq_of_size size) := by
  ext1
  · simp [union, capacity, size]
  · simp [contains_union size]

/-- The members of exactly one set are there. -/
theorem bounded_symmDiff : (left.symmDiff right).bounded =
    left.bounded.symmDiff right.bounded (capacity_eq_of_size size) := by
  -- A member of exactly one set is in the union and not in the intersection.
  ext1
  · simp [symmDiff, capacity, size]
  · simp only [mem_bounded, contains_symmDiff size, BoundedSet.symmDiff_members, Finset.mem_union,
      Finset.mem_sdiff]
    grind

end Pair

end StateSet

end NfaInduction
