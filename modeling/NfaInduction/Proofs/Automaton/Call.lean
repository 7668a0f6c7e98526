import NfaInduction.Proofs.Automaton.Authoring
import NfaInduction.Proofs.Automaton.Merge

/-! Every call on an automaton does to it what the same call does to the plain one it represents. -/

namespace NfaInduction

/-- A call that changes an automaton. -/
inductive Automaton.Call where
  /-- Makes a state active. -/
  | addState (state : Nat)
  /-- Makes a state active and initial. -/
  | setInitial (state : Nat)
  /-- Makes a state active and final. -/
  | setFinal (state : Nat)
  /-- Makes two states active and joins them. -/
  | setTransition (source target : Nat) (symbol : Symbol)
  /-- Lets one state absorb another. -/
  | merge (kept absorbed : Nat)
deriving DecidableEq

/-- The automaton after a call, and the fault that ended the call early. -/
def Automaton.call (automaton : Automaton) : Call → Edit
  | .addState state => automaton.addState state
  | .setInitial state => automaton.setInitial state
  | .setFinal state => automaton.setFinal state
  | .setTransition source target symbol => automaton.setTransition source target symbol
  | .merge kept absorbed => automaton.merge kept absorbed

namespace PlainAutomaton

/-- The outcome of a call that needs a slot for a state. -/
def withRoom (plain : PlainAutomaton) (state : Nat) (next : PlainAutomaton × Option Fault) :
    PlainAutomaton × Option Fault :=
  if state < Capacity.maxStates then next
  else (plain, some (.stateOutOfRange state Capacity.maxStates))

/-- The automaton after a call, and the fault that ended the call early. -/
def call (plain : PlainAutomaton) : Automaton.Call → PlainAutomaton × Option Fault
  | .addState state => plain.withRoom state (plain.addState state, none)
  | .setInitial state => plain.withRoom state (plain.setInitial state, none)
  | .setFinal state => plain.withRoom state (plain.setFinal state, none)
  | .setTransition source target symbol =>
    if inAlphabet : symbol.toNat < plain.alphabetSize then
      -- The source stays if there is no slot for the target.
      plain.withRoom source ((plain.addState source).withRoom target
        (plain.setTransition source target symbol.toNat inAlphabet, none))
    else (plain, some (.symbolOutOfRange symbol plain.alphabetSize))
  | .merge kept absorbed =>
    if kept ∉ plain.active then (plain, some (.mergeOnInactive kept))
    else if absorbed ∉ plain.active then (plain, some (.mergeOnInactive absorbed))
    else if kept = absorbed then (plain, some .mergeWithItself)
    else (plain.merge kept absorbed, none)

end PlainAutomaton

/-- An edit leaves what a plain automaton stands for, and the fault is the one that is expected. -/
def Edit.Matches (edit : Edit) (expected : PlainAutomaton × Option Fault) : Prop :=
  edit.automaton.Represents expected.1 ∧ edit.fault = expected.2

namespace Automaton

variable {automaton : Automaton} {plain : PlainAutomaton}

/-- An alphabet so small that an automaton over it may grow to the limit. -/
def Roomy (alphabetSize : Nat) : Prop :=
  (Capacity.matrixBytes alphabetSize Capacity.maxStates).isSome

/-- Whether there is room for growth is computed from the size of the alphabet. -/
instance (alphabetSize : Nat) : Decidable (Roomy alphabetSize) :=
  inferInstanceAs (Decidable ((Capacity.matrixBytes alphabetSize Capacity.maxStates).isSome = true))

/-- Over a small alphabet only a state without a slot is refused. -/
theorem Outgrows.of_roomy {alphabetSize state : Nat} {fault : Fault}
    (roomy : Roomy alphabetSize) (outgrows : Outgrows alphabetSize state fault) :
    Capacity.maxStates ≤ state ∧ fault = .stateOutOfRange state Capacity.maxStates := by
  cases outgrows with
  | limit beyond => exact ⟨beyond, rfl⟩
  | matrix admitted excessive =>
    -- Every matrix up to the limit is addressable.
    have addressable := Capacity.isSome_tableWords_of_matrixBytes admitted roomy
    rw [excessive] at addressable
    cases addressable

/-- A state of a represented automaton has a slot. -/
theorem Represents.lt_limit (represents : automaton.Represents plain) {state : Nat}
    (member : state ∈ plain.active) : state < Capacity.maxStates :=
  Nat.lt_of_lt_of_le (represents.lt_maxStates member) represents.maxStates_le

/-- Activating calls match if they are refused exactly for the want of a slot. -/
theorem Represents.withRoom (represents : automaton.Represents plain) {edit : Edit} {state : Nat}
    {next : PlainAutomaton} (roomy : Roomy next.alphabetSize) (member : state ∈ next.active)
    (occupies : automaton.Occupies state edit next) :
    edit.Matches (plain.withRoom state (next, none)) := by
  -- A state that was activated lies below the limit, and one that failed lies at or beyond it.
  rcases occupies with ⟨after, rfl, grown⟩ | ⟨fault, rfl, outgrows⟩
  · rw [PlainAutomaton.withRoom, if_pos (grown.lt_limit member)]
    exact ⟨grown, rfl⟩
  · obtain ⟨beyond, rfl⟩ := outgrows.of_roomy roomy
    rw [PlainAutomaton.withRoom, if_neg (Nat.not_lt_of_le beyond)]
    exact ⟨represents, rfl⟩

/-- A call for a transition is matched, whatever part of it is refused. -/
theorem Represents.matches_setTransition (represents : automaton.Represents plain)
    (roomy : Roomy plain.alphabetSize) (source target : Nat) (symbol : Symbol) :
    (automaton.setTransition source target symbol).Matches
      (plain.call (.setTransition source target symbol)) := by
  rw [PlainAutomaton.call]
  split
  · rename_i inAlphabet
    rcases represents.setTransition source target inAlphabet with
      ⟨after, done, joined⟩ | ⟨fault, failed, outgrows⟩ | ⟨after, fault, failed, grown, outgrows⟩
    · have sourceIn : source < Capacity.maxStates := joined.lt_limit (by simp)
      have targetIn : target < Capacity.maxStates := joined.lt_limit (by simp)
      rw [PlainAutomaton.withRoom, if_pos sourceIn, PlainAutomaton.withRoom, if_pos targetIn, done]
      exact ⟨joined, rfl⟩
    · obtain ⟨beyond, rfl⟩ := outgrows.of_roomy roomy
      rw [PlainAutomaton.withRoom, if_neg (Nat.not_lt_of_le beyond), failed]
      exact ⟨represents, rfl⟩
    · -- The source had room, for it is active now.
      have sourceIn : source < Capacity.maxStates := grown.lt_limit (by simp)
      obtain ⟨beyond, rfl⟩ := outgrows.of_roomy roomy
      rw [PlainAutomaton.withRoom, if_pos sourceIn, PlainAutomaton.withRoom,
        if_neg (Nat.not_lt_of_le beyond), failed]
      exact ⟨grown, rfl⟩
  · rename_i outside
    rw [represents.setTransition_of_le source target (Nat.le_of_not_lt outside)]
    exact ⟨represents, rfl⟩

/-- A call for a merge is matched, whether it is refused or not. -/
theorem Represents.matches_merge (represents : automaton.Represents plain) (kept absorbed : Nat) :
    (automaton.merge kept absorbed).Matches (plain.call (.merge kept absorbed)) := by
  -- The four outcomes of a merge are the four branches of the finite-set rule, in its order.
  rw [PlainAutomaton.call]
  rcases represents.merge kept absorbed with ⟨keptOut, refused⟩ | ⟨keptIn, absorbedOut, refused⟩ |
    ⟨keptIn, rfl, refused⟩ | ⟨keptIn, absorbedIn, distinct, merged, done, result⟩
  · rw [if_pos keptOut, refused]
    exact ⟨represents, rfl⟩
  · rw [if_neg (not_not_intro keptIn), if_pos absorbedOut, refused]
    exact ⟨represents, rfl⟩
  · rw [if_neg (not_not_intro keptIn), if_neg (not_not_intro keptIn), if_pos rfl, refused]
    exact ⟨represents, rfl⟩
  · rw [if_neg (not_not_intro keptIn), if_neg (not_not_intro absorbedIn), if_neg distinct, done]
    exact ⟨result, rfl⟩

/-- Every call is matched over an alphabet that leaves room for growth. -/
theorem Represents.call (represents : automaton.Represents plain) (roomy : Roomy plain.alphabetSize)
    (call : Call) : (automaton.call call).Matches (plain.call call) := by
  -- One matching lemma per kind of call.
  cases call with
  | addState state =>
    exact represents.withRoom roomy (Finset.mem_insert_self _ _) (represents.activate state)
  | setInitial state =>
    exact represents.withRoom roomy (Finset.mem_insert_self _ _) (represents.setInitial state)
  | setFinal state =>
    exact represents.withRoom roomy (Finset.mem_insert_self _ _) (represents.setFinal state)
  | setTransition source target symbol =>
    exact represents.matches_setTransition roomy source target symbol
  | merge kept absorbed => exact represents.matches_merge kept absorbed

/-- A call that needs a slot leaves an automaton that represents some plain one. -/
theorem Represents.exists_of_occupies (represents : automaton.Represents plain) {edit : Edit}
    {state : Nat} {next : PlainAutomaton} (occupies : automaton.Occupies state edit next) :
    ∃ plain, edit.automaton.Represents plain := by
  rcases occupies with ⟨after, rfl, grown⟩ | ⟨fault, rfl, _⟩
  · exact ⟨next, grown⟩
  · exact ⟨plain, represents⟩

/-- Over any alphabet a call leaves an automaton that represents some plain one. -/
theorem Represents.exists_call (represents : automaton.Represents plain) (call : Call) :
    ∃ next, (automaton.call call).automaton.Represents next := by
  cases call with
  | addState state => exact represents.exists_of_occupies (represents.activate state)
  | setInitial state => exact represents.exists_of_occupies (represents.setInitial state)
  | setFinal state => exact represents.exists_of_occupies (represents.setFinal state)
  | setTransition source target symbol =>
    -- A refused call may leave the source of the transition behind.
    rw [Automaton.call]
    by_cases inAlphabet : symbol.toNat < plain.alphabetSize
    · rcases represents.setTransition source target inAlphabet with
        ⟨after, done, joined⟩ | ⟨fault, failed, _⟩ | ⟨after, fault, failed, grown, _⟩
      · rw [done]
        exact ⟨_, joined⟩
      · rw [failed]
        exact ⟨_, represents⟩
      · rw [failed]
        exact ⟨_, grown⟩
    · rw [represents.setTransition_of_le source target (Nat.le_of_not_lt inAlphabet)]
      exact ⟨_, represents⟩
  | merge kept absorbed => exact ⟨_, (represents.matches_merge kept absorbed).1⟩

end Automaton

end NfaInduction
