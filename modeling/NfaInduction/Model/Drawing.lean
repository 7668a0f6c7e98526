import NfaInduction.Model.Printer

/-! A model is drawn as a directed graph with one edge for each pair of joined states. -/

namespace NfaInduction

namespace Model

/-- The style of a state, if its flags call for one. -/
def nodeStyle? (isInitial isFinal : Bool) : Option String :=
  match isInitial, isFinal with
  | true, true => some "filled,bold,dashed"
  | true, false => some "filled"
  | false, true => some "bold,dashed"
  | false, false => none

/-- The line of a state. -/
def nodeLine (model : Model) (state : Nat) : String :=
  let name := Text.numeral state
  let style := match nodeStyle? (model.initial.contains state) (model.finals.contains state) with
    | some style => s!" style=\"{style}\""
    | none => ""
  s!"  s{name} [label=\"{name}\"{style}]"

/-- Whether two transitions join the same pair of states. -/
def samePair (left right : Automaton.Transition) : Bool :=
  left.source == right.source && left.target == right.target

/-- The line of the transitions that join one pair of states. -/
def edgeLine (steps : List Automaton.Transition) : String :=
  match steps with
  | [] => ""
  | first :: _ =>
    -- All steps of the group have the ends of its first one.
    let label := ",".intercalate (steps.map fun step => Text.numeral step.symbol)
    let source := Text.numeral first.source
    let target := Text.numeral first.target
    s!"  s{source} -> s{target} [label=\"{label}\"]"

/-- The lines of a drawing, with every state before every edge. -/
def drawing (model : Model) : List String :=
  ["digraph \"NFA\" \x7b",
    "  rankdir=LR",
    "  node [shape=box width=0.1 height=0.1 fontname=Arial]",
    "  edge [fontname=Arial]"] ++
  (List.range model.stateCount).map model.nodeLine ++
  (model.transitions.splitBy samePair).map edgeLine ++
  ["\x7d"]

end Model

/-- The drawing of an automaton. -/
def Automaton.drawingText (automaton : Automaton) : String :=
  Text.ofLines automaton.toModel.drawing

end NfaInduction
