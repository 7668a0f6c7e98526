import NfaInduction.StateSet.Basic

/-! A cursor walks the members of a state set upward, one at a time, and can start over. -/

namespace NfaInduction

/-- A place in an ascending walk over the members of a state set. -/
structure StateSet.Cursor where
  /-- All words of the set that is walked over. -/
  words : List Word
  /-- State of the lowest bit of the word under the cursor. -/
  base : Nat
  /-- Members of the word under the cursor that are still to come. -/
  current : Word
  /-- Words after the one under the cursor. -/
  rest : List Word
deriving DecidableEq

namespace StateSet

/-- A cursor before the lowest of the members recorded in the words. -/
def Cursor.ofWords (words : List Word) : Cursor :=
  ⟨words, 0, words.headD 0, words.tail⟩

/-- A cursor before the lowest member. -/
def cursor (set : StateSet) : Cursor := Cursor.ofWords set.words.toList

namespace Cursor

/-- The next member and the cursor behind it, looked for in the current word and those after it. -/
def seek (words : List Word) (base : Nat) (current : Word) :
    List Word → Option (Nat × Cursor)
  | [] =>
    if current = 0 then none
    else some (base + Word.lowest current, ⟨words, base, Word.dropLowest current, []⟩)
  | next :: rest =>
    -- An exhausted word gives way to the next one, sixty-four states farther.
    if current = 0 then seek words (base + Word.width) next rest
    else some (base + Word.lowest current, ⟨words, base, Word.dropLowest current, next :: rest⟩)

/-- The next member and the cursor behind it, or nothing at the end. -/
def next? (cursor : Cursor) : Option (Nat × Cursor) :=
  seek cursor.words cursor.base cursor.current cursor.rest

/-- The results of `count` steps and the cursor after them, which stays at the end once there. -/
def advance (cursor : Cursor) : Nat → List (Option Nat) × Cursor
  | 0 => ([], cursor)
  | count + 1 =>
    match cursor.next? with
    | none => let (items, last) := cursor.advance count; (none :: items, last)
    | some (state, behind) => let (items, last) := behind.advance count; (some state :: items, last)

/-- Members that are still to come. -/
def remaining (cursor : Cursor) : List Nat :=
  Word.positionsFrom cursor.base cursor.current
    ++ membersFrom (cursor.base + Word.width) cursor.rest

/-- The cursor moved back before the lowest member. -/
def rewind (cursor : Cursor) : Cursor := ofWords cursor.words

/-- The walk of a fresh cursor is the whole listing. -/
theorem remaining_cursor (set : StateSet) : set.cursor.remaining = set.toList := by
  -- A set without words has no members either, and the first word of any other starts at zero.
  rw [toList_eq, cursor]
  cases set.words.toList with
  | nil => simp [ofWords, remaining, membersFrom]
  | cons word rest => simp [ofWords, remaining, membersFrom]

/-- A step takes the first of the members still to come, and there is none at the end. -/
theorem seek_eq (words : List Word) (base : Nat) (current : Word) (rest : List Word) :
    match seek words base current rest with
    | none => Word.positionsFrom base current ++ membersFrom (base + Word.width) rest = []
    | some (state, behind) =>
      Word.positionsFrom base current ++ membersFrom (base + Word.width) rest =
        state :: behind.remaining ∧ behind.words = words := by
  -- Words without members contribute nothing to the walk.
  induction rest generalizing base current with
  | nil =>
    by_cases zero : current = 0
    · simp [seek, zero, membersFrom]
    · rw [seek, if_neg zero, Word.positionsFrom_of_ne_zero base zero]
      exact ⟨rfl, rfl⟩
  | cons next rest hypothesis =>
    by_cases zero : current = 0
    · simpa [seek, zero, membersFrom] using hypothesis (base + Word.width) next
    · rw [seek, if_neg zero, Word.positionsFrom_of_ne_zero base zero]
      exact ⟨rfl, rfl⟩

/-- A cursor is at its end exactly if no member is still to come. -/
theorem next?_eq_none_iff {cursor : Cursor} : cursor.next? = none ↔ cursor.remaining = [] := by
  -- A member still to come is found by the step.
  have walk := seek_eq cursor.words cursor.base cursor.current cursor.rest
  rw [next?, remaining]
  split at walk
  · simp_all
  · simp_all

/-- A step takes the first member still to come and leaves the others. -/
theorem remaining_of_next? {cursor behind : Cursor} {state : Nat}
    (stepped : cursor.next? = some (state, behind)) :
    cursor.remaining = state :: behind.remaining := by
  -- The step looks for it in the current word and those after it.
  have walk := seek_eq cursor.words cursor.base cursor.current cursor.rest
  rw [next?] at stepped
  rw [stepped] at walk
  exact walk.1

/-- A step does not change what the cursor walks over. -/
theorem words_of_next? {cursor behind : Cursor} {state : Nat}
    (stepped : cursor.next? = some (state, behind)) : behind.words = cursor.words := by
  -- The words are handed on for a later start.
  have walk := seek_eq cursor.words cursor.base cursor.current cursor.rest
  rw [next?] at stepped
  rw [stepped] at walk
  exact walk.2

end Cursor

end StateSet

end NfaInduction
