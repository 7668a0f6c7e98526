import NfaInduction.Proofs.Except
import NfaInduction.Proofs.StateSet.Bounded
import NfaInduction.StateSet.Checked

/-! Sets are changed in place, word by word, and a fault comes before the first change. -/

namespace NfaInduction

namespace StateSet

/-- What a checked operation leaves of a set, which is the set itself after a fault, and its result. -/
def settled {α : Type} (start : StateSet) : Except Fault (α × StateSet) → StateSet × Except Fault α
  | .ok (value, after) => (after, .ok value)
  | .error fault => (start, .error fault)

/-- Work on a set in place, which keeps what was changed before a fault. -/
abbrev InPlace (α : Type) : Type := ExceptT Fault (StateM StateSet) α

namespace InPlace

/-- The set after some work, and the result or the fault. -/
def perform {α : Type} (work : InPlace α) (start : StateSet) : StateSet × Except Fault α :=
  (work.run.run start).swap

/-- The place of a state: the index of its word, and a word with its bit only. -/
def locate (state : Nat) : InPlace (Nat × Word) := do
  let capacity := (← get).capacity
  if state < capacity then return (state / Word.width, Word.bit (state % Word.width))
  else throw (.stateOutOfRange state capacity)

/-- Whether a state is a member. -/
def test (state : Nat) : InPlace Bool := do
  let (index, mask) ← locate state
  return (← get).words.getD index 0 &&& mask != 0

/-- Alters the bit of a state in its word, and tells whether it was set. -/
def alter (change : Word → Word → Word) (state : Nat) : InPlace Bool := do
  let (index, mask) ← locate state
  let before := (← get).words.getD index 0 &&& mask != 0
  modify fun start => ⟨start.words.modify index (change · mask)⟩
  return before

/-- Adds a state, and tells whether it was there. -/
def add : Nat → InPlace Bool := alter fun word mask => word ||| mask

/-- Removes a state, and tells whether it was there. -/
def remove : Nat → InPlace Bool := alter fun word mask => word &&& ~~~mask

/-- Lets one state stand for another, by three steps each of which may have a fault. -/
def absorb (kept absorbed : Nat) : InPlace Unit := do
  let first ← test kept
  let second ← remove absorbed
  if first || second then discard (add kept)

/-- Removes all states. -/
def clear : InPlace Unit := modify fun start => ⟨Array.replicate start.words.size 0⟩

/-- Makes room for some states. -/
def grow (states : Nat) : InPlace Unit := modify fun start =>
  let missing := Word.countFor states - start.words.size
  if start.words.size < Word.countFor states then ⟨start.words ++ Array.replicate missing 0⟩ else start

/-- Whether some word is not zero. -/
def any : InPlace Bool := return (← get).words.any (· != 0)

/-- Insists on as many words as another set has. -/
def alongside (other : StateSet) : InPlace Unit := do
  if (← get).words.size ≠ other.words.size then throw .differentCapacities

/-- Combines each word with the corresponding one of another set. -/
def combine (change : Word → Word → Word) (other : StateSet) : InPlace Unit := do
  alongside other
  modify fun start => ⟨start.words.zipWith change other.words⟩

/-- Whether some word combines with the corresponding one of another set to a nonzero word. -/
def probe (change : Word → Word → Word) (other : StateSet) : InPlace Bool := do
  alongside other
  return ((← get).words.zip other.words).any fun (left, right) => change left right != 0

variable {α β : Type} {start other : StateSet}

/-- Work goes on where what comes before it has no fault. -/
theorem perform_bind (work : InPlace α) (next : α → InPlace β) (start : StateSet) :
    perform (work >>= next) start =
      match perform work start with
      | (middle, .ok value) => perform (next value) middle
      | (middle, .error fault) => (middle, .error fault) := by
  simp only [perform, ExceptT.run_bind, StateT.run_bind]
  rcases work.run.run start with ⟨_ | _, middle⟩ <;> rfl

/-- A state below the capacity has a place, and any other one is refused. -/
theorem perform_locate (state : Nat) : perform (locate state) start =
    (start, start.within state (state / Word.width, Word.bit (state % Word.width))) := by
  -- The check comes before anything else.
  rw [StateSet.within]
  by_cases within : state < start.capacity
  · rw [if_pos within]
    exact congrArg (perform · start) (if_pos within)
  · rw [if_neg within]
    exact congrArg (perform · start) (if_neg within)

/-- A state is looked up as by the checked operation. -/
theorem perform_test (state : Nat) :
    perform (test state) start = (start, start.contains? state) := by
  -- The state is located before its bit is looked up.
  rw [test, perform_bind, perform_locate, contains?, within, within]
  by_cases within : state < start.capacity
  · rw [if_pos within, if_pos within]
    rfl
  · rw [if_neg within, if_neg within]

/-- A bit is altered where there is room for it, and otherwise nothing is. -/
theorem perform_alter (change : Word → Word → Word) (state : Nat) :
    perform (alter change state) start = settled start (start.within state (start.contains state,
      ⟨start.words.modify (state / Word.width) (change · (Word.bit (state % Word.width)))⟩)) := by
  -- The state is located before its bit is altered, so that a fault comes first.
  rw [alter, perform_bind, perform_locate, within, within]
  by_cases within : state < start.capacity
  · rw [if_pos within, if_pos within]
    rfl
  · rw [if_neg within, if_neg within]
    rfl

/-- A state is added as by the checked operation. -/
theorem perform_add (state : Nat) :
    perform (add state) start = settled start (start.insert? state) :=
  perform_alter _ state

/-- A state is removed as by the checked operation. -/
theorem perform_remove (state : Nat) :
    perform (remove state) start = settled start (start.erase? state) :=
  perform_alter _ state

/-- Work is done as well if its result is of no use. -/
theorem perform_discard (work : InPlace α) (start : StateSet) :
    perform (discard work) start =
      ((perform work start).1, (perform work start).2.map fun _ => ()) := by
  rw [perform, discard, map_const, Function.comp_apply, ExceptT.run_map, StateT.run_map]
  rfl

/-- All three steps are made, or none of them has changed anything. -/
theorem perform_absorb (kept absorbed : Nat) :
    perform (absorb kept absorbed) start =
      settled start ((start.absorb? kept absorbed).map fun after => ((), after)) := by
  rw [absorb, perform_bind, perform_test, absorb?, contains?]
  by_cases first : kept < start.capacity
  · simp only [within, if_pos first]
    rw [perform_bind, perform_remove, erase?, within, bind_of_ok rfl]
    by_cases second : absorbed < start.capacity
    · -- The third step finds room where the first one did.
      have room : kept < (start.erase absorbed).capacity := by rwa [capacity_erase]
      simp only [if_pos second, settled, StateSet.absorb]
      cases start.contains kept || start.contains absorbed with
      | false => rfl
      | true =>
        simp only [if_true]
        rw [perform_discard, perform_add, insert?, within, if_pos room]
        rfl
    · simp only [if_neg second]
      rfl
  · simp only [within, if_neg first]
    rfl

/-- Members are cleared by zeroing all words, which are zero already in a set without members. -/
theorem perform_clear : perform clear start = (start.clear, .ok ()) := by
  -- Words that are all zero are those of a new set of the same size.
  have fresh : (⟨Array.replicate start.words.size 0⟩ : StateSet) = ofCapacity start.capacity := by
    rw [ofCapacity, capacity, Word.countFor_mul_width]
  refine Prod.ext (Eq.trans fresh ?_) rfl
  refine eq_of_contains ?_ (by simp)
  rw [size_clear, ← fresh, Array.size_replicate]

/-- New words are zero and come behind the old ones. -/
theorem perform_grow (states : Nat) : perform (grow states) start = (start.grow states, .ok ()) := by
  -- Zero words are added behind the words only if there are too few of them.
  refine Prod.ext ?_ rfl
  change (if start.words.size < Word.countFor states then _ else start) = _
  have room : Word.countFor (max start.capacity states) =
      max start.words.size (Word.countFor states) := Word.countFor_max _ _
  rw [StateSet.grow]
  split
  · refine congrArg StateSet.mk (Array.ext ?_ fun index inLeft inRight => ?_)
    · rw [Array.size_ofFn, room, Array.size_append, Array.size_replicate]
      omega
    · rw [Array.getElem_ofFn, Array.getElem_append, Array.getD]
      split
      · rfl
      · exact Array.getElem_replicate ..
  · refine congrArg StateSet.mk (Array.ext ?_ fun index inLeft inRight => ?_)
    · rw [Array.size_ofFn, room]
      omega
    · rw [Array.getElem_ofFn, Array.getD, dif_pos inLeft]
      rfl

/-- Another set is insisted on having as many words. -/
theorem perform_alongside : perform (alongside other) start =
    (start, start.alongside other fun _ => ()) := by
  -- The sizes are compared before anything else.
  rw [StateSet.alongside]
  by_cases size : start.words.size = other.words.size
  · rw [if_pos size]
    exact congrArg (perform · start) (if_neg (not_not_intro size))
  · rw [if_neg size]
    exact congrArg (perform · start) (if_pos size)

/-- Sets with as many words are combined as by the checked operation, and others not at all. -/
theorem perform_combine (change : Word → Word → Word) :
    perform (combine change other) start = settled start ((start.alongside other fun _ =>
      ⟨start.words.zipWith change other.words⟩).map fun after => ((), after)) := by
  -- The sizes are compared before the first word is changed.
  rw [combine, perform_bind, perform_alongside]
  by_cases size : start.words.size = other.words.size
  · simp only [StateSet.alongside, if_pos size]
    rfl
  · simp only [StateSet.alongside, if_neg size]
    rfl

/-- Some pair of corresponding words combines to a nonzero word where the scan finds one. -/
theorem any_zip {left right : StateSet} (size : left.words.size = right.words.size)
    (change : Word → Word → Word) :
    ((left.words.zip right.words).any fun (first, second) => change first second != 0) =
      anyWord change left right := by
  -- A pair of words is at the same index in both sets, which are equally long.
  rw [Bool.eq_iff_iff, anyWord, Nat.any_eq_finRange_any, List.any_eq_true, Array.any_eq_true]
  constructor
  · rintro ⟨index, present, nonzero⟩
    have both : index < left.words.size ∧ index < right.words.size := by
      simpa [Nat.lt_min] using present
    exact ⟨⟨index, both.1⟩, List.mem_finRange _, by simpa [Array.getD, both.2] using nonzero⟩
  · rintro ⟨⟨index, present⟩, _, nonzero⟩
    have partner : index < right.words.size := size ▸ present
    exact ⟨index, by rw [Array.size_zip]; omega, by simpa [Array.getD, partner] using nonzero⟩

/-- Corresponding words are looked through as by the checked operation. -/
theorem perform_probe (change : Word → Word → Word) :
    perform (probe change other) start =
      (start, start.alongside other fun _ => anyWord change start other) := by
  -- The sizes are compared before the first pair of words is looked at.
  rw [probe, perform_bind, perform_alongside]
  by_cases size : start.words.size = other.words.size
  · simp only [StateSet.alongside, if_pos size, ← any_zip size]
    rfl
  · simp only [StateSet.alongside, if_neg size]

end InPlace

end StateSet

end NfaInduction
