import NfaInduction.Automaton.Basic

/-! Matching follows all runs of an automaton on a word at once. -/

namespace NfaInduction

namespace Automaton

/-- States reached by a symbol from any of the given states. -/
def reached (automaton : Automaton) (current : StateSet) (symbol : Nat) : StateSet :=
  current.toList.foldl
    (fun next state => next.union (automaton.successors.row state symbol))
    (StateSet.ofCapacity automaton.maxStates)

/-- Whether some run from the given states reads the word and ends in a final state. -/
def matchFrom (automaton : Automaton) (current : StateSet) : List Symbol → Except Fault Bool
  | [] => .ok (current.meets automaton.finals)
  | symbol :: rest => do
    -- A symbol outside the alphabet is noticed even where every run has already ended.
    let symbol ← automaton.symbolIndex symbol
    if current.isEmpty then return false
    automaton.matchFrom (automaton.reached current symbol) rest

/-- Whether the automaton accepts a word. -/
def isMatch (automaton : Automaton) (word : List Symbol) : Except Fault Bool :=
  automaton.matchFrom automaton.initial word

/-- Whether the automaton accepts some of the words, up to the first that it accepts. -/
def acceptsAny (automaton : Automaton) : List (List Symbol) → Except Fault Bool
  | [] => .ok false
  | word :: rest => do
    if ← automaton.isMatch word then return true
    automaton.acceptsAny rest

/-- How many of the words the automaton accepts. -/
def acceptedCount (automaton : Automaton) : List (List Symbol) → Except Fault Nat
  | [] => .ok 0
  | word :: rest => do
    let accepted ← automaton.isMatch word
    let others ← automaton.acceptedCount rest
    return others + accepted.toNat

end Automaton

end NfaInduction
