import NfaInduction.Model.Basic
import NfaInduction.Text.Numeral

/-! A model is printed as numbered parts under comment lines, with one transition a line. -/

namespace NfaInduction

namespace Model

/-- Numbers on one line, separated by a space. -/
def numberLine (numbers : List Nat) : String := " ".intercalate (numbers.map Text.numeral)

/-- The lines of a model text. -/
def toLines (model : Model) : List String :=
  ["# Alphabet", Text.numeral model.alphabetSize,
    "# States", Text.numeral model.stateCount,
    "# Initial states", numberLine model.initial,
    "# Final states", numberLine model.finals,
    "# Transitions", Text.numeral model.transitions.length] ++
  model.transitions.map fun step => numberLine [step.source, step.target, step.symbol]

end Model

/-- Lines one under the other, each with a line end. -/
def Text.ofLines (lines : List String) : String := String.join (lines.map (· ++ "\n"))

/-- The model text of an automaton. -/
def Automaton.modelText (automaton : Automaton) : String :=
  Text.ofLines automaton.toModel.toLines

end NfaInduction
