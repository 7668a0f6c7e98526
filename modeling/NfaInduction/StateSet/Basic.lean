import NfaInduction.Word

/-! A state set keeps one membership bit per state in packed words of a fixed number. -/

namespace NfaInduction

/-- A set of states below a capacity, packed into words with state zero in the lowest bit. -/
structure StateSet where
  /-- Membership bits, sixty-four states a word. -/
  words : Array Word
deriving DecidableEq

namespace StateSet

/-- The empty set with room for the states below `capacity`, rounded up to whole words. -/
def ofCapacity (capacity : Nat) : StateSet := ⟨Array.replicate (Word.countFor capacity) 0⟩

/-- The set without any room. -/
def empty : StateSet := ⟨#[]⟩

/-- Number of states there is room for. -/
def capacity (set : StateSet) : Nat := set.words.size * Word.width

/-- Whether a state is a member, which no state beyond the capacity is. -/
def contains (set : StateSet) (state : Nat) : Bool :=
  Word.hasBit (set.words.getD (state / Word.width) 0) (state % Word.width)

/-- The set with a state added, or the same set if the state lies beyond the capacity. -/
def insert (set : StateSet) (state : Nat) : StateSet :=
  let bit := Word.bit (state % Word.width)
  ⟨set.words.modify (state / Word.width) (· ||| bit)⟩

/-- The set with a state removed. -/
def erase (set : StateSet) (state : Nat) : StateSet :=
  let bit := Word.bit (state % Word.width)
  ⟨set.words.modify (state / Word.width) (· &&& ~~~bit)⟩

/-- States in both of two sets of one capacity. -/
def inter (left right : StateSet) : StateSet := ⟨left.words.zipWith (· &&& ·) right.words⟩

/-- States in either of two sets of one capacity. -/
def union (left right : StateSet) : StateSet := ⟨left.words.zipWith (· ||| ·) right.words⟩

/-- States in exactly one of two sets of one capacity. -/
def symmDiff (left right : StateSet) : StateSet := ⟨left.words.zipWith (· ^^^ ·) right.words⟩

/-- Whether a set has a member. -/
def isNonempty (set : StateSet) : Bool := set.words.any (· != 0)

/-- Whether a set has no member. -/
def isEmpty (set : StateSet) : Bool := !set.isNonempty

/-- The set without members and with the same capacity. -/
def clear (set : StateSet) : StateSet :=
  -- A set without members stays as it is, so that sets that are kept once stay so.
  if set.isEmpty then set else ⟨Array.replicate set.words.size 0⟩

/-- Clearing keeps the number of words. -/
theorem size_clear (set : StateSet) : set.clear.words.size = set.words.size := by
  -- The new words are as many as the old ones.
  rw [clear]
  split
  · rfl
  · exact Array.size_replicate

/-- Whether some pair of corresponding words combines to a nonzero word. -/
def anyWord (combine : Word → Word → Word) (left right : StateSet) : Bool :=
  -- The combined set is never built, and the scan stops at the first nonzero word.
  Nat.any left.words.size fun index bound =>
    combine left.words[index] (right.words.getD index 0) != 0

/-- Whether two sets of one capacity share a member. -/
def meets (left right : StateSet) : Bool := anyWord (· &&& ·) left right

/-- Whether either of two sets of one capacity has a member. -/
def covers (left right : StateSet) : Bool := anyWord (· ||| ·) left right

/-- Whether two sets of one capacity have different members. -/
def differs (left right : StateSet) : Bool := anyWord (· ^^^ ·) left right

/-- The set without `absorbed`, and with `kept` if it held either of the two. -/
def absorb (set : StateSet) (kept absorbed : Nat) : StateSet :=
  let flagged := set.contains kept || set.contains absorbed
  let rest := set.erase absorbed
  if flagged then rest.insert kept else rest

/-- Members recorded in words of which the first starts at state `base`, ascending. -/
def membersFrom (base : Nat) : List Word → List Nat
  | [] => []
  | word :: rest => Word.positionsFrom base word ++ membersFrom (base + Word.width) rest

/-- Members recorded in some words from an index on, ascending. -/
def membersAt (words : Array Word) (index : Nat) : (count : Nat) → List Nat
  | 0 => []
  | count + 1 =>
    Word.positionsFrom (index * Word.width) (words.getD index 0) ++
      membersAt words (index + 1) count

/-- Members in ascending order. -/
def toList (set : StateSet) : List Nat := membersAt set.words 0 set.words.size

/-- Words from an index to the last record what they record as a list. -/
theorem membersAt_eq {words : Array Word} {index count : Nat} (last : index + count = words.size) :
    membersAt words index count = membersFrom (index * Word.width) (words.toList.drop index) := by
  -- Each of them is the head of the words that are left.
  induction count generalizing index with
  | zero => rw [membersAt, List.drop_of_length_le (by simp; omega), membersFrom]
  | succ count hypothesis =>
    have present : index < words.toList.length := by simp; omega
    rw [membersAt, hypothesis (by omega), List.drop_eq_getElem_cons present, membersFrom,
      Nat.succ_mul]
    congr 2
    simp [Array.getD, show index < words.size by omega]

/-- The members are those recorded in the words from the first to the last. -/
theorem toList_eq (set : StateSet) : set.toList = membersFrom 0 set.words.toList := by
  -- Nothing is left out at the start.
  rw [toList, membersAt_eq (Nat.zero_add _), Nat.zero_mul, List.drop_zero]

/-- Number of members. -/
def size (set : StateSet) : Nat :=
  set.words.foldl (fun total word => total + Word.count word) 0

/-- The lowest state below the capacity that is not a member. -/
def firstAbsent? (set : StateSet) : Option Nat :=
  -- Only a word with a clear bit can lack a state, and its complement shows the lowest.
  (set.words.findFinIdx? (· != Word.full)).map fun (index : Fin set.words.size) =>
    index.val * Word.width + Word.lowest (~~~set.words[index])

/-- The members there is room for in a set of another capacity, rounded up to whole words. -/
def resize (set : StateSet) (capacity : Nat) : StateSet :=
  ⟨Array.ofFn fun (index : Fin (Word.countFor capacity)) => set.words.getD index.val 0⟩

/-- A resized set has the words that its capacity calls for. -/
theorem size_resize (set : StateSet) (capacity : Nat) :
    (set.resize capacity).words.size = Word.countFor capacity := Array.size_ofFn

/-- The set with room for at least the states below `capacity`, and the same members. -/
def grow (set : StateSet) (capacity : Nat) : StateSet := set.resize (max set.capacity capacity)

/-- Bytes that the words take. -/
def heapBytes (set : StateSet) : Nat := set.words.size * 8

end StateSet

end NfaInduction
