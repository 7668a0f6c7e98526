import NfaInduction.Automaton.Match
import NfaInduction.Error

/-! A committee of automata decides by the majority of its members. -/

namespace NfaInduction

/-- Whether a sample is accepted, or the fault of a symbol outside the alphabet. -/
abbrev Classifier := Sample → Except Fault Bool

/-- Automata that decide together. -/
structure Committee where
  /-- The automata. -/
  members : List Automaton
  /-- There is somebody to decide. -/
  nonempty : members ≠ []

namespace Committee

/-- The committee of some automata, of which there must be one. -/
def ofMembers (members : List Automaton) : Except Error Committee :=
  match members with
  | [] => .error (.invalidArgument .noMembers)
  | first :: rest => .ok ⟨first :: rest, List.cons_ne_nil first rest⟩

/-- How many of some automata accept a sample. -/
def votesOf (sample : Sample) : List Automaton → Except Fault Nat
  | [] => .ok 0
  | member :: rest => do
    let accepted ← member.isMatch sample
    let others ← votesOf sample rest
    return others + accepted.toNat

/-- How many members accept a sample. -/
def votes (committee : Committee) (sample : Sample) : Except Fault Nat :=
  votesOf sample committee.members

/-- Whether more than half of the members accept a sample. -/
def accepts (committee : Committee) : Classifier := fun sample => do
  let votes ← committee.votes sample
  return committee.members.length / 2 < votes

end Committee

end NfaInduction
