import NfaInduction.StateSet.Laws

/-! Slices of a buffer of words are read, written over in place, and told apart. -/

namespace NfaInduction

/-- Words of which parts are read and written. -/
abbrev Buffer : Type := Array Word

namespace Buffer

/-- The words between two places, or nothing if they are not all there. -/
def slice? (buffer : Buffer) (start stop : Nat) : Option (Array Word) :=
  if start ≤ stop ∧ stop ≤ buffer.size then some (buffer.extract start stop) else none

/-- The part of a buffer in front of a place. -/
def front (buffer : Buffer) (place : Nat) : Buffer := buffer.extract 0 place

/-- The part of a buffer from a place on. -/
def back (buffer : Buffer) (place : Nat) : Buffer := buffer.extract place buffer.size

/-- The two parts of a buffer at a place, or nothing if it lies outside. -/
def splitAt? (buffer : Buffer) (place : Nat) : Option (Buffer × Buffer) :=
  if place ≤ buffer.size then some (buffer.front place, buffer.back place) else none

/-- The buffer with other words written over those from a place on. -/
def overwrite (buffer : Buffer) (start : Nat) (piece : Array Word) : Buffer :=
  Array.ofFn fun (place : Fin buffer.size) =>
    if start ≤ place ∧ place < start + piece.size then piece.getD (place - start) 0
    else buffer[place]

/-- The buffer with the words between two places changed, and what the change tells. -/
def alter? {α : Type} (buffer : Buffer) (start stop : Nat)
    (change : Array Word → Option (Array Word × α)) : Option (Buffer × α) := do
  let (piece, told) ← change (← buffer.slice? start stop)
  return (buffer.overwrite start piece, told)

variable {buffer : Buffer} {piece : Array Word} {start stop place other length : Nat}

/-- Writing over words does not change how many there are. -/
@[simp] theorem size_overwrite : (buffer.overwrite start piece).size = buffer.size := Array.size_ofFn

/-- A word that was written over is one of the new words, and any other is as it was. -/
theorem getElem_overwrite (within : place < (buffer.overwrite start piece).size) :
    (buffer.overwrite start piece)[place] =
      if start ≤ place ∧ place < start + piece.size then piece.getD (place - start) 0
      else getElem buffer place (size_overwrite ▸ within) := Array.getElem_ofFn within

/-- A place has the word that was written there, and otherwise the word as it was. -/
theorem getD_overwrite (inside : start + piece.size ≤ buffer.size) :
    (buffer.overwrite start piece).getD place 0 =
      if start ≤ place ∧ place < start + piece.size then piece.getD (place - start) 0
      else buffer.getD place 0 := by
  -- A place beyond the buffer is beyond the piece as well.
  by_cases within : place < buffer.size
  · have still : place < (buffer.overwrite start piece).size := by rwa [size_overwrite]
    rw [Array.getD, dif_pos still, Array.getInternal_eq_getElem, getElem_overwrite]
    simp [Array.getD, within]
  · have outside : ¬(start ≤ place ∧ place < start + piece.size) := by omega
    rw [if_neg outside, Array.getD, dif_neg (by rwa [size_overwrite]), Array.getD, dif_neg within]

/-- Words that are all there are read. -/
theorem slice?_of_le (inside : start + length ≤ buffer.size) :
    buffer.slice? start (start + length) = some (buffer.extract start (start + length)) :=
  if_pos ⟨Nat.le_add_right _ _, inside⟩

/-- Words that are read are all there. -/
theorem of_slice? {slice : Array Word} (read : buffer.slice? start (start + length) = some slice) :
    start + length ≤ buffer.size ∧ buffer.extract start (start + length) = slice := by
  rw [slice?, Option.ite_none_right_eq_some] at read
  exact ⟨read.1.2, Option.some.inj read.2⟩

/-- Words that are read are as many as there are between the two places. -/
theorem size_of_slice? {slice : Array Word} (read : buffer.slice? start (start + length) = some slice) :
    slice.size = length := by
  -- A slice that is read lies within the buffer.
  obtain ⟨inside, rfl⟩ := of_slice? read
  rw [Array.size_extract]
  omega

/-- Words apart from those that are written over stay as they are. -/
theorem slice?_overwrite_of_apart (apart : other + length ≤ start ∨ start + piece.size ≤ other) :
    (buffer.overwrite start piece).slice? other (other + length) =
      buffer.slice? other (other + length) := by
  -- No place of the slice is one of the piece.
  rw [slice?, slice?, size_overwrite]
  split
  · refine congrArg some (Array.ext (by simp) fun index inLeft inRight => ?_)
    rw [Array.size_extract] at inLeft
    have outside : ¬(start ≤ other + index ∧ other + index < start + piece.size) := by omega
    rw [Array.getElem_extract, getElem_overwrite, if_neg outside, Array.getElem_extract]
  · rfl

/-- What is written at the front of some words is read back in front of the others. -/
theorem slice?_overwrite_front {slice : Array Word}
    (read : buffer.slice? start (start + length) = some slice) :
    (buffer.overwrite start piece).slice? start (start + length) =
      some (Buffer.overwrite slice 0 piece) := by
  obtain ⟨inside, rfl⟩ := of_slice? read
  rw [slice?_of_le (by simpa using inside)]
  refine congrArg some (Array.ext (by simp) fun index inLeft inRight => ?_)
  rw [Array.size_extract] at inLeft
  -- Places are counted from the first of these words on both sides.
  have same : start ≤ start + index ∧ start + index < start + piece.size ↔
      0 ≤ index ∧ index < 0 + piece.size := by omega
  simp only [Array.getElem_extract, getElem_overwrite, Nat.add_sub_cancel_left, same, Nat.sub_zero]

/-- Words that are written over as a whole are replaced. -/
theorem overwrite_eq (all : piece.size = buffer.size) : buffer.overwrite 0 piece = piece := by
  -- Every place is one of the piece.
  refine Array.ext (by simp [all]) fun index inLeft inRight => ?_
  rw [getElem_overwrite, if_pos ⟨Nat.zero_le _, by omega⟩]
  simp [Array.getD, inRight]

/-- Words that lie inside a part that was zeroed are zero. -/
theorem slice?_overwrite_zero {count : Nat} (first : start ≤ other)
    (last : other + length ≤ start + count) (inside : other + length ≤ buffer.size) :
    (buffer.overwrite start (Array.replicate count 0)).slice? other (other + length) =
      some (Array.replicate length 0) := by
  -- Every place of the slice is one of the zeros.
  rw [slice?_of_le (by simpa using inside)]
  refine congrArg some (Array.ext (by simp; omega) fun index inLeft inRight => ?_)
  rw [Array.size_replicate] at inRight
  have zeroed : start ≤ other + index ∧ other + index < start + count := by omega
  have present : other + index - start < count := by omega
  rw [Array.getElem_extract, getElem_overwrite, Array.size_replicate, if_pos zeroed,
    Array.getElem_replicate]
  simp [Array.getD, present]

/-- Words of a buffer of zeros are zero. -/
theorem slice?_replicate {size : Nat} (inside : start + length ≤ size) :
    slice? (Array.replicate size 0) start (start + length) = some (Array.replicate length 0) := by
  -- Any part of zeros is zeros.
  rw [slice?_of_le (by simpa using inside)]
  refine congrArg some (Array.ext (by simp; omega) fun index inLeft inRight => ?_)
  simp

section Split

variable (inside : place ≤ buffer.size)
include inside

/-- The front has as many words as there are before the place. -/
theorem size_front : (buffer.front place).size = place := by
  rw [front, Array.size_extract]
  omega

/-- Words at the start of the back start at the place. -/
theorem slice?_back : (buffer.back place).slice? 0 length = buffer.slice? place (place + length) := by
  -- Places are counted from the cut on.
  have same : 0 ≤ length ∧ length ≤ (buffer.back place).size ↔
      place ≤ place + length ∧ place + length ≤ buffer.size := by
    rw [back, Array.size_extract]
    omega
  simp only [slice?, same]
  split
  · refine congrArg some (Array.ext (by simp [back]) fun index inLeft inRight => ?_)
    simp [back, Array.getElem_extract]
  · rfl

/-- Words that end before the place are words of the front. -/
theorem slice?_front (before : start + length ≤ place) :
    (buffer.front place).slice? start (start + length) = buffer.slice? start (start + length) := by
  -- The slice ends before the cut.
  rw [slice?_of_le (by rwa [size_front inside]), slice?_of_le (by omega)]
  refine congrArg some (Array.ext (by simp [front]; omega) fun index inLeft inRight => ?_)
  simp [front, Array.getElem_extract]

/-- Words that end before the place are written over in the front. -/
theorem overwrite_front (before : start + piece.size ≤ place) :
    (buffer.front place).overwrite start piece ++ buffer.back place =
      buffer.overwrite start piece := by
  -- The piece ends before the cut, so that nothing behind the cut is changed.
  refine Array.ext (by simp [front, back]; omega) fun index inLeft inRight => ?_
  rw [Array.getElem_append]
  split
  · simp [getElem_overwrite, front]
  · rename_i high
    rw [size_overwrite, size_front inside] at high
    have outside : ¬(start ≤ index ∧ index < start + piece.size) := by omega
    rw [getElem_overwrite, if_neg outside]
    simp [back, size_front inside, Nat.add_sub_cancel' (Nat.le_of_not_lt high)]

/-- Words from the place on are written over in the back. -/
theorem overwrite_back :
    buffer.front place ++ (buffer.back place).overwrite 0 piece = buffer.overwrite place piece := by
  -- The piece begins at the cut, so that nothing in front of it is changed.
  refine Array.ext (by simp [front, back]; omega) fun index inLeft inRight => ?_
  rw [Array.getElem_append]
  split
  · rename_i low
    rw [size_front inside] at low
    have outside : ¬(place ≤ index ∧ index < place + piece.size) := by omega
    rw [getElem_overwrite, if_neg outside]
    simp [front]
  · rename_i high
    rw [size_front inside] at high
    obtain ⟨offset, rfl⟩ := Nat.exists_eq_add_of_le (Nat.le_of_not_lt high)
    simp [getElem_overwrite, back, size_front inside]

end Split

/-- The words from one place on combined into those from another on, in the parts of a split buffer. -/
def addRow? (buffer : Buffer) (target source length : Nat) : Option Buffer :=
  let unite (words piece : Array Word) : Option (Array Word × Unit) :=
    some (piece.zipWith (· ||| ·) words, ())
  -- The buffer is split at the later of the rows, so that each lies in a part of its own.
  if target < source then do
    let (low, high) ← buffer.splitAt? source
    let words ← high.slice? 0 length
    let (low, _) ← low.alter? target (target + length) (unite words)
    return low ++ high
  else do
    let (low, high) ← buffer.splitAt? target
    let words ← low.slice? source (source + length)
    let (high, _) ← high.alter? 0 length (unite words)
    return low ++ high

/-- Words apart from each other are combined whichever of them come first. -/
theorem addRow?_eq {target source : Nat} {first second : Array Word}
    (apart : target + length ≤ source ∨ source + length ≤ target)
    (read : buffer.slice? target (target + length) = some first)
    (added : buffer.slice? source (source + length) = some second) :
    buffer.addRow? target source length =
      some (buffer.overwrite target (first.zipWith (· ||| ·) second)) := by
  -- The cut is made at the row that lies behind, and so each row has a side of its own.
  have insideTarget := (of_slice? read).1
  have insideSource := (of_slice? added).1
  have size : (first.zipWith (· ||| ·) second).size = length := by
    rw [Array.size_zipWith, size_of_slice? read, size_of_slice? added, Nat.min_self]
  rw [addRow?]
  by_cases ordered : target < source
  · have before : target + length ≤ source := by omega
    have inside : source ≤ buffer.size := by omega
    simp only [if_pos ordered, splitAt?, if_pos inside, alter?, slice?_back inside, added,
      slice?_front inside before, read, Option.bind_eq_bind, Option.bind_some, Option.pure_def]
    rw [overwrite_front inside (by rwa [size])]
  · have before : source + length ≤ target := by omega
    have inside : target ≤ buffer.size := by omega
    simp only [if_neg ordered, splitAt?, if_pos inside, alter?, slice?_back inside, added,
      slice?_front inside before, read, Option.bind_eq_bind, Option.bind_some, Option.pure_def]
    rw [overwrite_back inside]

end Buffer

end NfaInduction
