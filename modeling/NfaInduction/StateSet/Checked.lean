import NfaInduction.Fault
import NfaInduction.StateSet.Basic

/-! Checked operations on state sets answer only for states and partners that fit. -/

namespace NfaInduction

namespace StateSet

/-- Answers with a value if a state lies below the capacity. -/
def within {α : Type} (set : StateSet) (state : Nat) (answer : α) : Except Fault α :=
  if state < set.capacity then .ok answer else .error (.stateOutOfRange state set.capacity)

/-- Answers with a value if two sets have one capacity. -/
def alongside {α : Type} (left right : StateSet) (answer : Unit → α) : Except Fault α :=
  if left.words.size = right.words.size then .ok (answer ()) else .error .differentCapacities

/-- Whether a state below the capacity is a member. -/
def contains? (set : StateSet) (state : Nat) : Except Fault Bool :=
  set.within state (set.contains state)

/-- Adds a state below the capacity and tells whether it was a member. -/
def insert? (set : StateSet) (state : Nat) : Except Fault (Bool × StateSet) :=
  set.within state (set.contains state, set.insert state)

/-- Removes a state below the capacity and tells whether it was a member. -/
def erase? (set : StateSet) (state : Nat) : Except Fault (Bool × StateSet) :=
  set.within state (set.contains state, set.erase state)

/-- Lets one state below the capacity stand for another. -/
def absorb? (set : StateSet) (kept absorbed : Nat) : Except Fault StateSet := do
  -- The surviving state is looked at first, so its fault is the one reported.
  set.within kept ()
  set.within absorbed (set.absorb kept absorbed)

/-- Intersection of two sets of one capacity. -/
def inter? (left right : StateSet) : Except Fault StateSet :=
  left.alongside right fun _ => left.inter right

/-- Union of two sets of one capacity. -/
def union? (left right : StateSet) : Except Fault StateSet :=
  left.alongside right fun _ => left.union right

/-- Symmetric difference of two sets of one capacity. -/
def symmDiff? (left right : StateSet) : Except Fault StateSet :=
  left.alongside right fun _ => left.symmDiff right

/-- Whether two sets of one capacity share a member. -/
def meets? (left right : StateSet) : Except Fault Bool :=
  left.alongside right fun _ => left.meets right

/-- Whether either of two sets of one capacity has a member. -/
def covers? (left right : StateSet) : Except Fault Bool :=
  left.alongside right fun _ => left.covers right

/-- Whether two sets of one capacity have different members. -/
def differs? (left right : StateSet) : Except Fault Bool :=
  left.alongside right fun _ => left.differs right

end StateSet

end NfaInduction
