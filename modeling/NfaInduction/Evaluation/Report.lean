import NfaInduction.Evaluation.Tally
import NfaInduction.Text.Decimal
import NfaInduction.Text.Numeral

/-! A report lists every decision under the label of its sample, and then the totals. -/

namespace NfaInduction

namespace Report

/-- The line above the decisions on samples with one label. -/
def header : Label → String
  | .positive => "Positive samples"
  | .negative => "Negative samples"

/-- The line of a decision. -/
def decisionLine (decision : Decision) : String :=
  s!"Evaluation # {Text.numeral decision.index} class: {Text.numeral decision.accepted.toNat}"

/-- The lines of a decision, of which the first one for a label comes under a header. -/
def decisionLines (decision : Decision) : List String :=
  (if decision.index = 0 then [header decision.label] else []) ++ [decisionLine decision]

/-- The lines of the totals. -/
def totalLines (tally : Tally) : List String :=
  let { truePositives, positives, trueNegatives, negatives } := tally
  [s!"TP: {truePositives}/{positives} TN: {trueNegatives}/{negatives}",
    s!"Total: {tally.total} Total P: {positives} Total N: {negatives}"]

/-- The lines of a report. -/
def lines (decisions : List Decision) : List String :=
  decisions.flatMap decisionLines ++ totalLines (Tally.ofDecisions decisions)

/-- The accuracy in percent, and in color whether nothing is wrong, if there are samples. -/
def accuracyLine? (colored : Bool) (tally : Tally) : Option String :=
  tally.accuracy?.map fun accuracy =>
    let percent := Text.twoPlaces (accuracy * 100) ++ "%"
    -- Green where every decision is right, and yellow otherwise, in bold.
    let color := if tally.correct = tally.total then "32" else "33"
    let shown :=
      if colored then s!"\x1b[0m\x1b[1m\x1b[{color}m{percent}\x1b[0m" else percent
    s!"Accuracy: {shown}"

/-- The lines of a summary. -/
def summary (colored : Bool) (tally : Tally) : List String :=
  totalLines tally ++ (accuracyLine? colored tally).toList

end Report

end NfaInduction
