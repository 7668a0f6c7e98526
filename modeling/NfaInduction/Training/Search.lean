import NfaInduction.Automaton.Edit
import NfaInduction.Automaton.Match

/-! The search for a partner tries to merge a state into each of the earlier ones. -/

namespace NfaInduction

namespace Training

/-- An earlier state that can absorb another without a negative sample being accepted. -/
structure Partner where
  /-- Place of the earlier state in the list of states. -/
  position : Nat
  /-- The earlier state. -/
  state : Nat
  /-- Number of remaining positive samples accepted after the merge, if they were counted. -/
  score : Option Nat
deriving DecidableEq

/-- A partner together with the automaton after the merge. -/
structure Choice where
  /-- The partner. -/
  partner : Partner
  /-- The automaton in which the partner has absorbed the state. -/
  merged : Automaton
deriving DecidableEq

/-- What a search found. -/
structure Findings where
  /-- All partners whose score was counted. -/
  counted : List Partner
  /-- The choice, if there is any partner. -/
  choice : Option Choice
deriving DecidableEq

/-- Whether a score is better than the one of a partner, which a missing one always is. -/
def improves (score : Nat) (best : Option Partner) : Bool :=
  best.all fun partner => partner.score.all (· < score)

/-- What searches work on: an automaton with its states, and two more automata to try merges in. -/
structure SearchState (source : Type) where
  /-- The automaton learnt so far. -/
  hypothesis : Automaton
  /-- Holds a merge while it is tried. -/
  candidate : Automaton
  /-- Holds the merge that is chosen. -/
  best : Automaton
  /-- States of the automaton in the order of search. -/
  states : List Nat
  /-- Source of random words. -/
  random : source
deriving DecidableEq

/-- The partner that is chosen, and what it leaves behind. -/
structure Searched (source : Type) where
  /-- All partners whose score was counted. -/
  counted : List Partner
  /-- The partner, if there is any. -/
  partner : Option Partner
  /-- The automata and states after the search. -/
  work : SearchState source
deriving DecidableEq

namespace SearchState

variable {source : Type}

/-- Merges a state into an earlier one in a copy of the automaton. -/
def tryMerge (work : SearchState source) (state earlier : Nat) : Except Fault (SearchState source) := do
  let candidate ← ((work.candidate.cloneFrom work.hypothesis).merge earlier state).toExcept
  return { work with candidate }

/-- Exchanges the merge tried last for the one that was chosen before. -/
def swap (work : SearchState source) : SearchState source :=
  { work with candidate := work.best, best := work.candidate }

/-- Goes on with a search among the earlier states from a position on. -/
def searchFrom (skipBestSearch : Bool) (negatives remaining : List Sample) (state : Nat) :
    (position : Nat) → (partner : Option Partner) → (earlier : List Nat) → SearchState source →
      Except Fault (Searched source)
  | _, partner, [], work => .ok ⟨[], partner, work⟩
  | position, partner, candidate :: rest, work => do
    let work ← work.tryMerge state candidate
    if ← work.candidate.acceptsAny negatives then
      searchFrom skipBestSearch negatives remaining state (position + 1) partner rest work
    -- The first safe merge is taken without its score.
    else if skipBestSearch then return ⟨[], some ⟨position, candidate, none⟩, work.swap⟩
    else
      let score ← work.candidate.acceptedCount remaining
      let counted : Partner := ⟨position, candidate, some score⟩
      -- Of two partners with one score, the earlier stays.
      let (partner, work) :=
        if improves score partner then (some counted, work.swap) else (partner, work)
      let found ←
        searchFrom skipBestSearch negatives remaining state (position + 1) partner rest work
      return { found with counted := counted :: found.counted }

/-- Searches a partner for the state at a place among the states before it. -/
def searchPartner (skipBestSearch : Bool) (negatives remaining : List Sample)
    (work : SearchState source) (place : Nat) (inside : place < work.states.length) :
    Except Fault (Searched source) :=
  work.searchFrom skipBestSearch negatives remaining work.states[place] 0 none
    (work.states.take place)

end SearchState

/-- Searches a partner for a state among the earlier states, the first or the best one. -/
def search (skipBestSearch : Bool) (negatives remaining : List Sample) (hypothesis : Automaton)
    (state : Nat) (earlier : List Nat) : Except Fault Findings := do
  -- A search draws no random words, and any automata will do to try merges in.
  let work : SearchState Unit := ⟨hypothesis, hypothesis, hypothesis, earlier ++ [state], ()⟩
  let found ← work.searchPartner skipBestSearch negatives remaining earlier.length (by simp [work])
  return ⟨found.counted, found.partner.map (⟨·, found.work.best⟩)⟩

end Training

end NfaInduction
