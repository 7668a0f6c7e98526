import NfaInduction.Automaton.Basic

/-! Edits activate, flag, join and merge states, and keep what they did before a fault. -/

namespace NfaInduction

/-- What a call left behind, and the fault that ended it early. -/
structure Edit where
  /-- The automaton after the call. -/
  automaton : Automaton
  /-- The fault, if there was one. -/
  fault : Option Fault
deriving DecidableEq

namespace Edit

/-- The outcome of a call that ran to its end. -/
def done (automaton : Automaton) : Edit := ⟨automaton, none⟩

/-- A call that goes on with another unless a fault ended it. -/
def andThen (edit : Edit) (next : Automaton → Edit) : Edit :=
  match edit with
  | ⟨automaton, none⟩ => next automaton
  | ⟨automaton, some fault⟩ => ⟨automaton, some fault⟩

/-- The automaton after a call without a fault. -/
def toExcept (edit : Edit) : Except Fault Automaton :=
  match edit with
  | ⟨automaton, none⟩ => .ok automaton
  | ⟨_, some fault⟩ => .error fault

end Edit

namespace Automaton

/-- The automaton with each of its parts replaced by the one of another automaton. -/
def cloneFrom (automaton other : Automaton) : Automaton :=
  { automaton with
    active := other.active
    initial := other.initial
    finals := other.finals
    predecessors := other.predecessors
    successors := other.successors }

/-- Nothing is left of an automaton of which each part has been replaced. -/
@[simp] theorem cloneFrom_eq (automaton other : Automaton) : automaton.cloneFrom other = other := rfl

/-- The same automaton with its capacity doubled until a slot fits. -/
def growFor (automaton : Automaton) (state : Nat) : Except Fault Automaton :=
  if state < Capacity.maxStates then do
    let capacity := Capacity.aligned (Capacity.doubled automaton.maxStates state)
    -- The rows are moved while the slot is not in use, and both matrices are as large.
    let predecessors ← automaton.predecessors.reflow capacity automaton.active
    let successors ← automaton.successors.reflow capacity automaton.active
    return {
      active := automaton.active.grow capacity
      initial := automaton.initial.grow capacity
      finals := automaton.finals.grow capacity
      predecessors := predecessors
      successors := successors }
  else .error (.stateOutOfRange state Capacity.maxStates)

/-- The automaton with a slot that has room in use, and without transitions if it was not. -/
def occupy (automaton : Automaton) (state : Nat) : Automaton :=
  if automaton.isActive state then automaton
  else
    -- A slot that was in use before may hold the rows of the state merged away from it.
    { automaton with
      active := automaton.active.insert state
      predecessors := automaton.predecessors.clearState state
      successors := automaton.successors.clearState state }

/-- The automaton with a state active, grown if there is no room for it. -/
def activate (automaton : Automaton) (state : Nat) : Edit :=
  if state < automaton.maxStates then .done (automaton.occupy state)
  else
    match automaton.growFor state with
    | .ok grown => .done (grown.occupy state)
    | .error fault => ⟨automaton, some fault⟩

/-- Makes a state active. -/
def addState (automaton : Automaton) (state : Nat) : Edit := automaton.activate state

/-- Makes a state active and initial. -/
def setInitial (automaton : Automaton) (state : Nat) : Edit :=
  (automaton.activate state).andThen fun automaton =>
    .done { automaton with initial := automaton.initial.insert state }

/-- Makes a state active and final. -/
def setFinal (automaton : Automaton) (state : Nat) : Edit :=
  (automaton.activate state).andThen fun automaton =>
    .done { automaton with finals := automaton.finals.insert state }

/-- The automaton with two active states joined in both directions. -/
def link (automaton : Automaton) (source target symbol : Nat) : Automaton :=
  -- The other direction is recorded together with this one, never alone.
  if automaton.successors.contains source symbol target then automaton
  else { automaton with
    successors := automaton.successors.insert source symbol target
    predecessors := automaton.predecessors.insert target symbol source }

/-- Makes two states active and joins them by a symbol. -/
def setTransition (automaton : Automaton) (source target : Nat) (symbol : Symbol) : Edit :=
  match automaton.symbolIndex symbol with
  | .error fault => ⟨automaton, some fault⟩
  | .ok symbol =>
    -- A source that was activated stays so even if there is no room for the target.
    ((automaton.activate source).andThen (·.activate target)).andThen fun automaton =>
      .done (automaton.link source target symbol)

/-- The automaton with the transitions of one symbol moved from a state to the one that absorbs it. -/
def moveRows (automaton : Automaton) (kept absorbed symbol : Nat) : Automaton :=
  let { active, initial, finals, predecessors, successors } := automaton
  -- Every predecessor of the absorbed state now leads to the kept one.
  let predecessors := predecessors.unionRows symbol kept absorbed
  let successors := (predecessors.row absorbed symbol).toList.foldl
    (fun matrix state => matrix.redirect state symbol absorbed kept) successors
  -- A loop on the absorbed state has just become a step to the kept one.
  let successors := successors.unionRows symbol kept absorbed
  let predecessors := (successors.row absorbed symbol).toList.foldl
    (fun matrix state => matrix.redirect state symbol absorbed kept) predecessors
  { active, initial, finals, predecessors, successors }

/-- The automaton with one active state absorbed by another. -/
def fuse (automaton : Automaton) (kept absorbed : Nat) : Automaton :=
  let flagged := { automaton with
    initial := automaton.initial.absorb kept absorbed
    finals := automaton.finals.absorb kept absorbed
    active := automaton.active.erase absorbed }
  Nat.fold flagged.alphabetSize (fun symbol _ moved => moved.moveRows kept absorbed symbol) flagged

/-- Lets one active state absorb another, whose flags and transitions it takes over. -/
def merge (automaton : Automaton) (kept absorbed : Nat) : Edit :=
  if !automaton.isActive kept then ⟨automaton, some (.mergeOnInactive kept)⟩
  else if !automaton.isActive absorbed then ⟨automaton, some (.mergeOnInactive absorbed)⟩
  else if kept = absorbed then ⟨automaton, some .mergeWithItself⟩
  else .done (automaton.fuse kept absorbed)

end Automaton

end NfaInduction
