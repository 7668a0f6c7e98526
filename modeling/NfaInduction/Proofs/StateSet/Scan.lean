import NfaInduction.Proofs.Rack
import NfaInduction.Proofs.StateSet.Bounded
import NfaInduction.StateSet.Cursor

/-! Scans of packed words give the members of a finite set in ascending order, and start over. -/

namespace NfaInduction

/-- A list that is read item by item, and again from its start. -/
@[ext] structure Reading where
  /-- All items of the list. -/
  items : List Nat
  /-- Items that are still to come. -/
  rest : List Nat

namespace Reading

/-- A list that no item was read of. -/
def ofItems (items : List Nat) : Reading := ⟨items, items⟩

/-- What is left after the next item, and that item or nothing at the end. -/
def next (reading : Reading) : Reading × Option Nat :=
  (⟨reading.items, reading.rest.tail⟩, reading.rest.head?)

/-- The reading from the start again. -/
def rewind (reading : Reading) : Reading := ofItems reading.items

end Reading

namespace StateSet

/-- A place in the words of a set that a scan works on. -/
structure Scan where
  /-- The words of the set. -/
  words : Array Word
  /-- Index of the word that was fetched last. -/
  index : Nat
  /-- What is left of that word. -/
  fetch : Word

namespace Scan

/-- A scan that starts with the first word. -/
def ofWords (words : Array Word) : Scan := ⟨words, 0, words.getD 0 0⟩

/-- Fetches words until one is left with a bit, and takes its lowest one off. -/
def seek (words : Array Word) (index : Nat) (fetch : Word) : Scan × Option Nat :=
  if fetch = 0 then
    if within : index + 1 < words.size then seek words (index + 1) words[index + 1]
    -- The index moves on at the end too, and the exhausted word stays.
    else (⟨words, index + 1, fetch⟩, none)
  else (⟨words, index, Word.dropLowest fetch⟩, some (index * Word.width + Word.lowest fetch))
termination_by words.size - index

/-- The scan behind the next member, and that member or nothing at the end. -/
def next (scan : Scan) : Scan × Option Nat := seek scan.words scan.index scan.fetch

/-- The scan from the first word again. -/
def rewind (scan : Scan) : Scan := ofWords scan.words

/-- The members recorded in all words, and those that the scan has still to come to. -/
def reading (scan : Scan) : Reading where
  items := membersFrom 0 scan.words.toList
  rest := Word.positionsFrom (scan.index * Word.width) scan.fetch ++
    membersFrom ((scan.index + 1) * Word.width) (scan.words.toList.drop (scan.index + 1))

/-- A scan that starts has all members still to come to. -/
theorem reading_ofWords (words : Array Word) :
    (ofWords words).reading = .ofItems (membersFrom 0 words.toList) := by
  -- The first word is fetched at once, if there is one.
  obtain ⟨words⟩ := words
  cases words with
  | nil => simp [ofWords, reading, Reading.ofItems, membersFrom]
  | cons word rest => simp [ofWords, reading, Reading.ofItems, membersFrom]

/-- The next member is the first of those still to come. -/
theorem reading_seek (words : Array Word) (index : Nat) (fetch : Word) :
    (seek words index fetch).map reading id = (Scan.mk words index fetch).reading.next := by
  -- An exhausted word has no members, so the walk over the others is the one that is left.
  fun_induction seek words index fetch with
  | case1 index within ih =>
    have present : index + 1 < words.toList.length := by simpa using within
    rw [ih]
    simp [reading, List.drop_eq_getElem_cons present, membersFrom, Nat.succ_mul]
  | case2 index beyond =>
    have ended (start : Nat) : words.toList.drop (index + start + 1) = [] :=
      List.drop_of_length_le (by simp; omega)
    simp [reading, Reading.next, ended 0, ended 1, membersFrom]
  | case3 index fetch nonzero =>
    simp [reading, Reading.next, Word.positionsFrom_of_ne_zero _ nonzero]

end Scan

namespace Cursor

/-- The cursor behind the next member, and that member or nothing at the end. -/
def next (cursor : Cursor) : Cursor × Option Nat :=
  match cursor.next? with
  | none => (cursor, none)
  | some (state, behind) => (behind, some state)

/-- The members recorded in all words, and those that the cursor has still to come to. -/
def reading (cursor : Cursor) : Reading := ⟨membersFrom 0 cursor.words, cursor.remaining⟩

/-- A cursor that starts has all members still to come to. -/
theorem reading_ofWords (words : List Word) :
    (ofWords words).reading = .ofItems (membersFrom 0 words) := by
  -- All members are still to come to before the first step.
  have all := remaining_cursor ⟨words.toArray⟩
  rw [toList_eq] at all
  exact congrArg (Reading.mk _) all

/-- The next member is the first of those still to come. -/
theorem reading_next (cursor : Cursor) : cursor.next.map reading id = cursor.reading.next := by
  -- A step takes the first member off, and at the end there is none to take.
  rw [next]
  cases stepped : cursor.next? with
  | none =>
    have ended := next?_eq_none_iff.1 stepped
    simp [reading, Reading.next, ended]
  | some found =>
    obtain ⟨state, behind⟩ := found
    have walk := remaining_of_next? stepped
    have words := words_of_next? stepped
    simp [reading, Reading.next, walk, words]

/-- Steps in a row are a step and the others after it. -/
theorem advance_succ (cursor : Cursor) (count : Nat) :
    cursor.advance (count + 1) =
      (cursor.next.2 :: (cursor.next.1.advance count).1, (cursor.next.1.advance count).2) := by
  rw [advance, next]
  cases cursor.next? <;> rfl

/-- Steps in a row give the members still to come in their order, and nothing at the end. -/
theorem advance_eq (cursor : Cursor) (count : Nat) :
    (cursor.advance count).1 = (List.range count).map (cursor.reading.rest[·]?) ∧
      (cursor.advance count).2.reading =
        ⟨cursor.reading.items, cursor.reading.rest.drop count⟩ := by
  -- The induction goes along the steps, and each of them takes the first member off.
  induction count generalizing cursor with
  | zero => exact ⟨rfl, rfl⟩
  | succ count ih =>
    obtain ⟨behind, item⟩ := Prod.ext_iff.1 cursor.reading_next
    obtain ⟨items, last⟩ := ih cursor.next.1
    simp only [Prod.map_fst, Prod.map_snd, id, Reading.next] at behind item
    rw [advance_succ, items, last, behind, item]
    refine ⟨?_, by simp⟩
    simp [List.range_succ_eq_map, List.head?_eq_getElem?, Function.comp_def]

/-- Steps do not change what the cursor walks over. -/
theorem words_advance (cursor : Cursor) (count : Nat) :
    (cursor.advance count).2.words = cursor.words := by
  -- No step changes the words, which the induction carries on.
  induction count generalizing cursor with
  | zero => rfl
  | succ count ih =>
    rw [advance_succ, ih, next]
    cases stepped : cursor.next? with
    | none => rfl
    | some found => exact words_of_next? stepped

end Cursor

/-- A cursor that starts has the members in ascending order before it. -/
theorem reading_cursor (set : StateSet) :
    set.cursor.reading = .ofItems set.bounded.members.sort := by
  rw [cursor, Cursor.reading_ofWords, ← toList_eq, toList_eq_sort_members]

/-- A call on a scan. -/
inductive Step where
  /-- Asks for the next member. -/
  | next
  /-- Goes back to the start. -/
  | rewind
deriving DecidableEq

/-- How things that are stepped through are made of sets, copied and stepped. -/
def walks {kind : Type} (start : StateSet → kind) (next : kind → kind × Option Nat)
    (rewind : kind → kind) : Rack.Rules StateSet Step Empty (Option Nat) kind where
  make set := Rack.fresh (start set)
  act
    | .next, item => next item
    | .rewind, item => (rewind item, none)
  join pairing := pairing.elim

/-- Walks follow others whose starts, steps and returns to the start they are seen to make. -/
theorem walks_follow {kind other : Type} {view : kind → other} {start : StateSet → kind}
    {next : kind → kind × Option Nat} {rewind : kind → kind} {start' : StateSet → other}
    {next' : other → other × Option Nat} {rewind' : other → other}
    (started : ∀ set, view (start set) = start' set)
    (stepped : ∀ item, (next item).map view id = next' (view item))
    (rewound : ∀ item, view (rewind item) = rewind' (view item)) :
    (walks start next rewind).Follows view (walks start' next' rewind') where
  -- Only a step has a reply, which is the same on both sides.
  make set := congrArg Rack.fresh (started set)
  act
    | .next, item => stepped item
    | .rewind, item => congrArg (·, none) (rewound item)
  join pairing := pairing.elim

/-- Scans, one of which is made of a set for each place. -/
abbrev scans := walks (fun set => .ofWords set.words) Scan.next Scan.rewind

/-- Cursors, one of which is made of a set for each place. -/
abbrev cursors := walks cursor Cursor.next Cursor.rewind

/-- Readings of the members in ascending order. -/
abbrev readings := walks (fun set => .ofItems set.bounded.members.sort) Reading.next Reading.rewind

/-- A scan is a reading of the members in ascending order. -/
theorem scans_follow : scans.Follows Scan.reading readings :=
  walks_follow
    (fun set => by rw [Scan.reading_ofWords, ← toList_eq, toList_eq_sort_members])
    (fun scan => Scan.reading_seek scan.words scan.index scan.fetch)
    (fun scan => Scan.reading_ofWords scan.words)

/-- A cursor is a reading of the members in ascending order. -/
theorem cursors_follow : cursors.Follows Cursor.reading readings :=
  walks_follow
    reading_cursor
    Cursor.reading_next
    (fun cursor => Cursor.reading_ofWords cursor.words)

/-- The first absent state is the least one below the capacity that the finite set lacks. -/
theorem firstAbsent?_eq_some_iff {set : StateSet} {state : Nat} :
    set.firstAbsent? = some state ↔ state < set.bounded.capacity ∧ state ∉ set.bounded.members ∧
      ∀ lower < state, lower ∈ set.bounded.members := by
  simp only [capacity_bounded, mem_bounded]
  refine ⟨firstAbsent?_eq_some, ?_⟩
  rintro ⟨within, absent, below⟩
  cases found : set.firstAbsent? with
  | none => exact absurd (firstAbsent?_eq_none_iff.1 found state within) absent
  | some least =>
    -- Either of two such states would be a member if it were below the other one.
    obtain ⟨_, missing, lowers⟩ := firstAbsent?_eq_some found
    rcases Nat.lt_trichotomy least state with less | rfl | more
    · exact absurd (below least less) missing
    · rfl
    · exact absurd (lowers state more) absent

/-- What the scans of a set tell about the finite set that it stands for. -/
structure ScannedAs (set : StateSet) (finite : BoundedSet) : Prop where
  /-- The listing has the members in ascending order. -/
  listing : set.toList = finite.members.sort
  /-- Steps give the members in ascending order, and nothing at the end any more. -/
  steps : ∀ count, (set.cursor.advance count).1 = (List.range count).map (finite.members.sort[·]?)
  /-- After any number of steps, a copy goes on with the members that are left. -/
  onward : ∀ count more, ((set.cursor.advance count).2.advance more).1 =
    (List.range more).map ((finite.members.sort.drop count)[·]?)
  /-- After any number of steps, a return to the start is a new start. -/
  rewound : ∀ count, (set.cursor.advance count).2.rewind = set.cursor
  /-- The size is the number of members. -/
  size : set.size = finite.members.card
  /-- The first absent state is the least one below the capacity that is not a member. -/
  absent : ∀ state, set.firstAbsent? = some state ↔ state < finite.capacity ∧
    state ∉ finite.members ∧ ∀ lower < state, lower ∈ finite.members
  /-- There is none exactly if all states below the capacity are members. -/
  full : set.firstAbsent? = none ↔ ∀ state < finite.capacity, state ∈ finite.members

/-- Any set is scanned as the finite set that it stands for. -/
theorem scannedAs_bounded (set : StateSet) : set.ScannedAs set.bounded where
  -- The steps of a scan were found to be those through the sorted members.
  listing := set.toList_eq_sort_members
  steps count := by rw [(set.cursor.advance_eq count).1, reading_cursor, Reading.ofItems]
  onward count more := by
    rw [((set.cursor.advance count).2.advance_eq more).1, (set.cursor.advance_eq count).2,
      reading_cursor, Reading.ofItems]
  rewound count := congrArg Cursor.ofWords (set.cursor.words_advance count)
  size := by rw [← length_toList, toList_eq_sort_members, Finset.length_sort]
  absent _ := firstAbsent?_eq_some_iff
  full := by simp only [firstAbsent?_eq_none_iff, capacity_bounded, mem_bounded]

/--
Scans on any sets give the members in ascending order, whenever they are stepped, copied or started
over, and the size and the first absent state are those of the finite set.
-/
theorem scanned_run (calls : List (Rack.Call StateSet Step Empty)) :
    (Rack.run scans calls).map (Rack.seen Scan.reading) id = Rack.run readings calls ∧
    (Rack.run cursors calls).map (Rack.seen Cursor.reading) id = Rack.run readings calls ∧
    ∀ set : StateSet, set.ScannedAs set.bounded :=
  ⟨scans_follow.run calls, cursors_follow.run calls, scannedAs_bounded⟩

end StateSet

end NfaInduction
