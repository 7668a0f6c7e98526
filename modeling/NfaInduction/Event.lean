/-! Events tell what happened while samples were read and an automaton was trained. -/

namespace NfaInduction

/-- How much an event matters. -/
inductive Level where
  /-- For those who follow every consideration. -/
  | debug
  /-- For those who follow the progress. -/
  | info
  /-- For everyone. -/
  | warn
deriving DecidableEq

/-- Something worth telling. -/
inductive Event where
  /-- A sample file does not hold as many samples as it declares. -/
  | countMismatch (declared found : Nat)
  /-- A state can be absorbed by an earlier one, and so many remaining samples are then accepted. -/
  | possibleMerge (position index kept absorbed score : Nat)
  /-- A state was absorbed by an earlier one. -/
  | merge (position index kept absorbed : Nat) (score : Option Nat)
  /-- A positive sample was processed. -/
  | processed (processed total percent states : Nat)
  /-- All steps are done. -/
  | finished (states positives negatives : Nat)
deriving DecidableEq

namespace Event

/-- How much an event matters. -/
def level : Event → Level
  | .countMismatch .. => .warn
  | .possibleMerge .. => .debug
  | .merge .. | .processed .. | .finished .. => .info

/-- The words for an event. -/
def message : Event → String
  | .countMismatch .. => "sample count in header does not match"
  | .possibleMerge .. => "possible merge"
  | .merge .. => "merge"
  | .processed .. => "processed positive sample"
  | .finished .. => "training finished"

/-- A score, or the absence of one, in words. -/
def scoreText : Option Nat → String
  | some score => s!"Some({score})"
  | none => "None"

end Event

end NfaInduction
