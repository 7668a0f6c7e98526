import NfaInduction.Model.Drawing
import NfaInduction.Proofs.Model.Printing

/-! Lines of states and of edges show what they were written for, and so do the lines of a model text. -/

namespace NfaInduction

namespace Text

/-- Behind a fixed text in front, the rest of a text is left. -/
theorem drop_length (fixed : String) (rest : List Char) :
    (fixed.toList ++ rest).drop fixed.length = rest :=
  List.drop_left' String.length_toList

end Text

namespace Model

/-- The line of a state that is filled if it is initial, and bold and dashed if it is final. -/
def nodeText (number : Nat) (isInitial isFinal : Bool) : String :=
  let name := Text.numeral number
  match isInitial, isFinal with
  | true, true => s!"  s{name} [label=\"{name}\" style=\"filled,bold,dashed\"]"
  | true, false => s!"  s{name} [label=\"{name}\" style=\"filled\"]"
  | false, true => s!"  s{name} [label=\"{name}\" style=\"bold,dashed\"]"
  | false, false => s!"  s{name} [label=\"{name}\"]"

/-- The lines in front of the states. -/
def opening : List String := [
  "digraph \"NFA\" \x7b",
  "  rankdir=LR",
  "  node [shape=box width=0.1 height=0.1 fontname=Arial]",
  "  edge [fontname=Arial]"]

/-- What an edge line says: the two states that it joins, and what stands between the commas of its label. -/
structure EdgeText where
  /-- The state that the edge leaves. -/
  source : String
  /-- The state that the edge enters. -/
  target : String
  /-- The symbols of the label. -/
  symbols : List String

/-- An edge line is read from its front, each number up to the first character that is no digit. -/
def EdgeText.ofLine (line : String) : EdgeText :=
  let behindName := line.toList.drop "  s".length
  let behindArrow := (behindName.dropWhile Char.isDigit).drop " -> s".length
  let behindQuote := (behindArrow.dropWhile Char.isDigit).drop " [label=\"".length
  { source := String.ofList (behindName.takeWhile Char.isDigit)
    target := String.ofList (behindArrow.takeWhile Char.isDigit)
    symbols := ((behindQuote.takeWhile (· ≠ '"')).splitOn ',').map String.ofList }

/-- The line that says so. -/
def EdgeText.toLine (edge : EdgeText) : String :=
  let source := edge.source
  let target := edge.target
  let label := ",".intercalate edge.symbols
  s!"  s{source} -> s{target} [label=\"{label}\"]"

/-- The pair of states that an edge joins. -/
def EdgeText.ends (edge : EdgeText) : String × String := (edge.source, edge.target)

/-- An edge stands for one transition line for each symbol of its label. -/
def EdgeText.expansion (edge : EdgeText) : List String :=
  edge.symbols.map fun symbol => " ".intercalate [edge.source, edge.target, symbol]

/-- The transition lines for which edge lines stand. -/
def expandEdges (lines : List String) : List String :=
  lines.flatMap fun line => (EdgeText.ofLine line).expansion

/-- Nothing but the name and the style make the line of a state. -/
theorem nodeLine_eq (model : Model) (number : Nat) :
    model.nodeLine number =
      nodeText number (model.initial.contains number) (model.finals.contains number) := by
  -- There are four styles, one for each pair of flags.
  rw [nodeLine, ← String.toList_inj]
  cases model.initial.contains number <;> cases model.finals.contains number <;>
    simp [nodeStyle?, nodeText, toString, String.toList_append] <;> rfl

/-- The line of a transition. -/
def stepLine (step : Automaton.Transition) : String :=
  numberLine [step.source, step.target, step.symbol]

/-- The characters of the label of an edge. -/
def labelOf (steps : List Automaton.Transition) : List Char :=
  [','].intercalate (steps.map fun step => (Text.numeral step.symbol).toList)

/-- The characters of an edge line. -/
theorem toList_edgeLine (first : Automaton.Transition) (rest : List Automaton.Transition) :
    (edgeLine (first :: rest)).toList =
      "  s".toList ++ ((Text.numeral first.source).toList ++ (" -> s".toList ++
        ((Text.numeral first.target).toList ++ (" [label=\"".toList ++
          (labelOf (first :: rest) ++ "\"]".toList))))) := by
  -- All steps of an edge join the same states as the first one.
  simp only [edgeLine, toString, String.toList_append, String.toList_intercalate, labelOf,
    List.map_map, List.append_assoc]
  rfl

/-- A label is written in digits and commas. -/
theorem mem_labelOf {steps : List Automaton.Transition} {c : Char} (member : c ∈ labelOf steps) :
    c.isDigit ∨ c = ',' := by
  -- The induction goes along the steps, whose numerals have commas between them.
  induction steps with
  | nil => simp [labelOf] at member
  | cons step rest ih =>
    cases rest with
    | nil =>
      simp only [labelOf, List.map_cons, List.map_nil, List.intercalate_singleton] at member
      exact .inl (Text.isDigit_of_mem_numeral member)
    | cons next others =>
      have split : labelOf (step :: next :: others) =
          (Text.numeral step.symbol).toList ++ [','] ++ labelOf (next :: others) := by
        rw [labelOf, List.map_cons, List.map_cons, List.intercalate_cons_cons]
        rfl
      rw [split, List.mem_append, List.mem_append, List.mem_singleton] at member
      rcases member with (digit | comma) | later
      · exact .inl (Text.isDigit_of_mem_numeral digit)
      · exact .inr comma
      · exact ih later

/-- A label ends at its quote. -/
theorem takeWhile_labelOf (steps : List Automaton.Transition) :
    (labelOf steps ++ "\"]".toList).takeWhile (· ≠ '"') = labelOf steps := by
  -- The label has no quotation mark, and one follows it.
  have inside : ∀ c ∈ labelOf steps, decide (c ≠ '"') := by
    intro c member
    rcases mem_labelOf member with digit | rfl
    · exact decide_eq_true fun same => absurd (same ▸ digit) (by decide)
    · decide
  rw [List.takeWhile_append_of_pos inside]
  exact List.append_nil _

/-- The symbols of a label stand between its commas. -/
theorem splitOn_labelOf {steps : List Automaton.Transition} (some : steps ≠ []) :
    (labelOf steps).splitOn ',' = steps.map fun step => (Text.numeral step.symbol).toList := by
  -- No numeral has a comma.
  refine List.splitOn_intercalate ',' (fun part listed comma => ?_) (by simpa using some)
  obtain ⟨step, _, rfl⟩ := List.mem_map.1 listed
  exact absurd (Text.isDigit_of_mem_numeral comma) (by decide)

/-- An edge line is read as the states that it was written for, and as the symbols of its label. -/
theorem ofLine_edgeLine (first : Automaton.Transition) (rest : List Automaton.Transition) :
    EdgeText.ofLine (edgeLine (first :: rest)) =
      ⟨Text.numeral first.source, Text.numeral first.target,
        (first :: rest).map fun step => Text.numeral step.symbol⟩ := by
  -- Neither number runs on into the text behind it.
  have source := fun text => Text.span_numeral first.source (" -> s".toList ++ text) (by simp)
  have target := fun text => Text.span_numeral first.target (" [label=\"".toList ++ text) (by simp)
  have symbols := splitOn_labelOf (List.cons_ne_nil first rest)
  have label := takeWhile_labelOf (first :: rest)
  simp only [EdgeText.ofLine, toList_edgeLine, Text.drop_length, source, target, label, symbols,
    List.map_map, Function.comp_def, String.ofList_toList]

/-- What is read of an edge line is all of it. -/
theorem toLine_edgeLine {steps : List Automaton.Transition} (some : steps ≠ []) :
    (EdgeText.ofLine (edgeLine steps)).toLine = edgeLine steps := by
  -- The first step tells the ends of the edge, and all steps its label.
  obtain ⟨first, rest, rfl⟩ := List.exists_cons_of_ne_nil some
  rw [ofLine_edgeLine]
  rfl

/-- An edge line stands for the transitions that it was written for, which all join its two states. -/
theorem expansion_edgeLine {steps : List Automaton.Transition} {source target : Nat}
    (some : steps ≠ []) (joined : ∀ step ∈ steps, step.source = source ∧ step.target = target) :
    (EdgeText.ofLine (edgeLine steps)).ends = (Text.numeral source, Text.numeral target) ∧
      (EdgeText.ofLine (edgeLine steps)).expansion = steps.map stepLine := by
  -- Each step joins the ends of the edge, and its symbol is one of the label.
  obtain ⟨first, rest, rfl⟩ := List.exists_cons_of_ne_nil some
  obtain ⟨rfl, rfl⟩ := joined first List.mem_cons_self
  rw [ofLine_edgeLine]
  refine ⟨rfl, ?_⟩
  rw [EdgeText.expansion, List.map_map]
  refine List.map_congr_left fun step member => ?_
  obtain ⟨source, target⟩ := joined step member
  rw [stepLine, source, target]
  rfl

/-- No line of a drawing but those of states has a bracket right behind the first name. -/
def isNodeText (line : String) : Bool :=
  ((line.toList.drop "  s".length).dropWhile Char.isDigit)[1]? == some '['

/-- The characters of the line of a state. -/
theorem exists_toList_nodeText (number : Nat) (isInitial isFinal : Bool) : ∃ rest,
    (nodeText number isInitial isFinal).toList =
      "  s".toList ++ ((Text.numeral number).toList ++ (" [label=\"".toList ++
        ((Text.numeral number).toList ++ rest))) ∧ '\n' ∉ rest := by
  -- There are four styles, none of which breaks the line.
  cases isInitial <;> cases isFinal
  all_goals
    simp only [nodeText, toString, String.toList_append, List.append_assoc]
    exact ⟨_, rfl, by decide⟩

/-- The line of a state is told from the other lines. -/
theorem isNodeText_nodeText (number : Nat) (isInitial isFinal : Bool) :
    isNodeText (nodeText number isInitial isFinal) := by
  -- Behind the number of the state there is a label.
  obtain ⟨rest, chars, _⟩ := exists_toList_nodeText number isInitial isFinal
  rw [isNodeText, chars, Text.drop_length, (Text.span_numeral number _ (by simp)).2]
  rfl

/-- An edge line is no line of a state. -/
theorem isNodeText_edgeLine {steps : List Automaton.Transition} (some : steps ≠ []) :
    isNodeText (edgeLine steps) = false := by
  -- Behind the number of the source there is an arrow.
  obtain ⟨first, rest, rfl⟩ := List.exists_cons_of_ne_nil some
  rw [isNodeText, toList_edgeLine, Text.drop_length, (Text.span_numeral first.source _ (by simp)).2]
  rfl

/-- The line of a state shows its flags. -/
theorem nodeText_inj {number : Nat} {isInitial isFinal otherInitial otherFinal : Bool} :
    nodeText number isInitial isFinal = nodeText number otherInitial otherFinal ↔
      isInitial = otherInitial ∧ isFinal = otherFinal := by
  -- Each of the four styles has a text of its own.
  refine ⟨fun same => ?_, fun ⟨initial, final⟩ => by rw [initial, final]⟩
  have chars := congrArg String.toList same
  cases isInitial <;> cases isFinal <;> cases otherInitial <;> cases otherFinal
  all_goals simp [nodeText, toString] at chars ⊢

/-- No line of a state holds a line end. -/
theorem lineEnd_notMem_nodeText (number : Nat) (isInitial isFinal : Bool) :
    '\n' ∉ (nodeText number isInitial isFinal).toList := by
  -- A numeral has digits only, and no style breaks the line.
  obtain ⟨rest, chars, whole⟩ := exists_toList_nodeText number isInitial isFinal
  have digits : '\n' ∉ (Text.numeral number).toList := fun member =>
    absurd (Text.isDigit_of_mem_numeral member) (by decide)
  rw [chars]
  simp [digits, whole]

/-- No edge line holds a line end. -/
theorem lineEnd_notMem_edgeLine {steps : List Automaton.Transition} (some : steps ≠ []) :
    '\n' ∉ (edgeLine steps).toList := by
  -- Numerals and labels have digits and commas only.
  obtain ⟨first, rest, rfl⟩ := List.exists_cons_of_ne_nil some
  have digits : ∀ number, '\n' ∉ (Text.numeral number).toList := fun number member =>
    absurd (Text.isDigit_of_mem_numeral member) (by decide)
  have label : '\n' ∉ labelOf (first :: rest) := fun member => by
    rcases mem_labelOf member with digit | comma
    · exact absurd digit (by decide)
    · exact absurd comma (by decide)
  rw [toList_edgeLine]
  simp [digits, label]

/-- Different lists of numbers are written on different lines. -/
theorem numberLine_injective : Function.Injective numberLine := by
  -- The fields of the line are the numerals.
  intro left right same
  have fields := congrArg Text.fields same
  rw [fields_numberLine, fields_numberLine] at fields
  exact Text.numeral_injective.list_map fields

/-- Different transitions have different lines. -/
theorem stepLine_injective : Function.Injective stepLine := by
  -- A step is the three numbers on its line.
  intro left right same
  have numbers := numberLine_injective same
  cases left
  cases right
  simpa using numbers

/-- Different models have different texts. -/
theorem toLines_injective : Function.Injective toLines := by
  -- The first lines are of a fixed number, and all others are those of the transitions.
  intro left right same
  obtain ⟨parts, steps⟩ := List.append_inj same rfl
  simp only [List.cons.injEq, Text.numeral_injective.eq_iff, numberLine_injective.eq_iff,
    true_and, and_true] at parts
  obtain ⟨alphabetSize, stateCount, initial, finals, _⟩ := parts
  have transitions := stepLine_injective.list_map steps
  cases left
  cases right
  simp_all

end Model

end NfaInduction
