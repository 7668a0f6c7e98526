import Mathlib.Data.List.SplitBy
import NfaInduction.Proofs.Model.DrawingLine
import NfaInduction.Proofs.Model.RoundTrip

/-! A drawing and a model text carry the same automaton, and each of them tells what the other says. -/

namespace NfaInduction

namespace Model

/-- The lines of the states of a drawing. -/
def nodeLines (model : Model) : List String := (List.range model.stateCount).map model.nodeLine

/-- The edge lines of a drawing. -/
def edgeLines (model : Model) : List String := (model.transitions.splitBy samePair).map edgeLine

/-- A drawing lists states and then edges. -/
theorem drawing_eq (model : Model) :
    model.drawing = opening ++ (model.nodeLines ++ (model.edgeLines ++ ["\x7d"])) := by
  simp only [drawing, opening, nodeLines, edgeLines, List.append_assoc]

/-- The transitions on one edge line join the same two states. -/
theorem joined_of_mem_splitBy {steps all : List Automaton.Transition}
    (group : steps ∈ all.splitBy samePair) : steps ≠ [] ∧ ∃ source target,
      ∀ step ∈ steps, step.source = source ∧ step.target = target := by
  have some := List.ne_nil_of_mem_splitBy group
  refine ⟨some, ?_⟩
  obtain ⟨first, rest, rfl⟩ := List.exists_cons_of_ne_nil some
  -- Neighbours join the same states, so that all transitions of the group do.
  have : IsTrans Automaton.Transition (fun left right => samePair left right) := by
    refine ⟨fun left middle right before after => ?_⟩
    simp only [samePair, Bool.and_eq_true, beq_iff_eq] at before after ⊢
    exact ⟨before.1.trans after.1, before.2.trans after.2⟩
  have chain := (List.isChain_of_mem_splitBy group).pairwise
  refine ⟨first.source, first.target, List.forall_mem_cons.2 ⟨⟨rfl, rfl⟩, fun step member => ?_⟩⟩
  have same := (List.pairwise_cons.1 chain).1 step member
  simp only [samePair, Bool.and_eq_true, beq_iff_eq] at same
  exact ⟨same.1.symm, same.2.symm⟩

/-- Each edge line stands for its transitions, so that all of them stand for all transitions. -/
theorem expandEdges_edgeLines (model : Model) : expandEdges model.edgeLines = model.stepLines := by
  -- Transitions that join the same states are grouped, and each group is expanded on its own.
  have each : ∀ steps ∈ model.transitions.splitBy samePair,
      (EdgeText.ofLine (edgeLine steps)).expansion = steps.map stepLine := by
    intro steps group
    obtain ⟨some, source, target, joined⟩ := joined_of_mem_splitBy group
    exact (expansion_edgeLine some joined).2
  calc expandEdges model.edgeLines
      = (model.transitions.splitBy samePair).flatMap fun steps =>
          (EdgeText.ofLine (edgeLine steps)).expansion := List.flatMap_map ..
    _ = (model.transitions.splitBy samePair).flatMap (List.map stepLine) :=
        List.flatMap_congr each
    _ = model.stepLines := by
        rw [List.flatMap_def, ← List.map_flatten, List.flatten_splitBy]
        rfl

/-- No line of a drawing holds a line end. -/
theorem lineEnd_notMem_drawing (model : Model) : ∀ text ∈ model.drawing, '\n' ∉ text.toList := by
  -- There are fixed lines, lines of states and lines of edges.
  rw [drawing_eq]
  refine List.forall_mem_append.2 ⟨by decide, List.forall_mem_append.2 ⟨fun text listed => ?_,
    List.forall_mem_append.2 ⟨fun text listed => ?_, by decide⟩⟩⟩
  · obtain ⟨number, _, rfl⟩ := List.mem_map.1 listed
    rw [nodeLine_eq]
    exact lineEnd_notMem_nodeText _ _ _
  · obtain ⟨steps, group, rfl⟩ := List.mem_map.1 listed
    exact lineEnd_notMem_edgeLine (joined_of_mem_splitBy group).1

/-- The lines of the states are those in front of the edge lines. -/
theorem nodeLines_and_edgeLines_of_append {left right : Model}
    (same : left.nodeLines ++ left.edgeLines = right.nodeLines ++ right.edgeLines) :
    left.nodeLines = right.nodeLines ∧ left.edgeLines = right.edgeLines := by
  -- Lines of states can be told from lines of edges.
  have nodes : ∀ model : Model, ∀ line ∈ model.nodeLines, isNodeText line := by
    intro model line listed
    obtain ⟨number, _, rfl⟩ := List.mem_map.1 listed
    rw [nodeLine_eq]
    exact isNodeText_nodeText ..
  have edges : ∀ model : Model, ∀ line ∈ model.edgeLines, ¬isNodeText line := by
    intro model line listed
    obtain ⟨steps, group, rfl⟩ := List.mem_map.1 listed
    exact Bool.not_eq_true _ ▸ isNodeText_edgeLine (joined_of_mem_splitBy group).1
  have kept : ∀ model : Model,
      (model.nodeLines ++ model.edgeLines).filter isNodeText = model.nodeLines := fun model => by
    rw [List.filter_append, List.filter_eq_self.2 (nodes model), List.filter_eq_nil_iff.2 (edges model),
      List.append_nil]
  have front : left.nodeLines = right.nodeLines := by rw [← kept left, same, kept right]
  exact ⟨front, List.append_cancel_left (front ▸ same)⟩

/-- A description lists flags in ascending order, and of its states only. -/
structure Ascending (model : Model) : Prop where
  /-- Initial states are listed in ascending order. -/
  initial : model.initial.Pairwise (· < ·)
  /-- Final states are listed in ascending order. -/
  finals : model.finals.Pairwise (· < ·)
  /-- Initial states are states. -/
  initial_lt : ∀ number ∈ model.initial, number < model.stateCount
  /-- Final states are states. -/
  finals_lt : ∀ number ∈ model.finals, number < model.stateCount

/-- Lists in ascending order are the same if they hold the same numbers below a bound. -/
theorem eq_of_contains {left right : List Nat} {bound : Nat} (leftSorted : left.Pairwise (· < ·))
    (rightSorted : right.Pairwise (· < ·)) (leftBelow : ∀ number ∈ left, number < bound)
    (rightBelow : ∀ number ∈ right, number < bound)
    (same : ∀ number < bound, left.contains number = right.contains number) : left = right := by
  -- Both lists are sorted, and below the bound they have the same members.
  refine leftSorted.eq_of_mem_iff rightSorted fun number => ?_
  have iff : number < bound → (number ∈ left ↔ number ∈ right) := fun below => by
    rw [← List.contains_iff_mem, same number below, List.contains_iff_mem]
  exact ⟨fun listed => (iff (leftBelow number listed)).1 listed,
    fun listed => (iff (rightBelow number listed)).2 listed⟩

/-- A description is told from its drawing, up to the size of its alphabet. -/
theorem Ascending.eq_of_drawing {left right : Model} (leftAscends : left.Ascending)
    (rightAscends : right.Ascending) (alphabet : left.alphabetSize = right.alphabetSize)
    (same : left.drawing = right.drawing) : left = right := by
  -- The fixed lines at both ends are taken away first.
  rw [drawing_eq, drawing_eq] at same
  have shown := List.append_cancel_left same
  rw [← List.append_assoc, ← List.append_assoc] at shown
  obtain ⟨nodes, edges⟩ := nodeLines_and_edgeLines_of_append (List.append_cancel_right shown)
  -- There are as many states as lines of states, and each line shows the flags of its state.
  have count : left.stateCount = right.stateCount := by
    simpa [nodeLines] using congrArg List.length nodes
  have flags : ∀ number < left.stateCount,
      left.initial.contains number = right.initial.contains number ∧
        left.finals.contains number = right.finals.contains number := by
    intro number below
    have line := List.map_inj_left.1 (nodes.trans (congrArg (List.map _ ∘ List.range) count.symm))
      number (List.mem_range.2 below)
    rwa [nodeLine_eq, nodeLine_eq, nodeText_inj] at line
  have initial := eq_of_contains leftAscends.initial rightAscends.initial leftAscends.initial_lt
    (count ▸ rightAscends.initial_lt) fun number below => (flags number below).1
  have finals := eq_of_contains leftAscends.finals rightAscends.finals leftAscends.finals_lt
    (count ▸ rightAscends.finals_lt) fun number below => (flags number below).2
  -- The edge lines stand for the transitions.
  have steps : left.stepLines = right.stepLines := by
    rw [← expandEdges_edgeLines, edges, expandEdges_edgeLines]
  have transitions : left.transitions = right.transitions := stepLine_injective.list_map steps
  cases left
  cases right
  simp_all

end Model

namespace Automaton

variable {automaton : Automaton} {plain : PlainAutomaton}

/-- Pairs of states that some symbol joins, by source and then by target. -/
def joinedPairs (automaton : Automaton) : List (Nat × Nat) :=
  automaton.states.flatMap fun source => (automaton.targetsOf source).map fun target => (source, target)

/-- The renumbered transitions from one state to another. -/
def stepsBetween (automaton : Automaton) (pair : Nat × Nat) : List Transition :=
  (automaton.symbolsBetween pair.1 pair.2).map fun symbol =>
    ⟨automaton.position pair.1, automaton.position pair.2, symbol⟩

/-- No two states are joined twice. -/
theorem nodup_joinedPairs (automaton : Automaton) : automaton.joinedPairs.Nodup := by
  refine List.nodup_flatMap.2 ⟨fun source _ => ?_, ?_⟩
  · exact (StateSet.pairwise_toList _).nodup.map fun _ _ same => (Prod.mk.inj same).2
  · refine automaton.nodup_states.imp fun {source other} distinct => ?_
    -- Pairs with different sources are different.
    rw [Function.onFun_apply, List.disjoint_left]
    rintro pair left right
    obtain ⟨_, _, rfl⟩ := List.mem_map.1 left
    obtain ⟨_, _, same⟩ := List.mem_map.1 right
    exact distinct (Prod.mk.inj same).1.symm

section Represents

variable (represents : automaton.Represents plain)
include represents

/-- States that are joined are states, and some symbol joins them. -/
theorem Represents.of_mem_joinedPairs {pair : Nat × Nat} (member : pair ∈ automaton.joinedPairs) :
    pair.1 ∈ plain.active ∧ pair.2 ∈ plain.active ∧ automaton.stepsBetween pair ≠ [] := by
  -- The pair was listed for a target that some symbol leads to.
  obtain ⟨source, active, listed⟩ := List.mem_flatMap.1 member
  obtain ⟨target, reached, rfl⟩ := List.mem_map.1 listed
  obtain ⟨symbol, inAlphabet, held⟩ := (mem_targetsOf represents.shaped).1 reached
  have between : symbol ∈ automaton.symbolsBetween source target :=
    List.mem_filter.2 ⟨List.mem_range.2 inAlphabet, held⟩
  have step : (⟨source, target, symbol⟩ : Transition) ∈ automaton.transitionsByPair :=
    List.mem_flatMap.2 ⟨source, active, List.mem_flatMap.2
      ⟨target, reached, List.mem_map.2 ⟨symbol, between, rfl⟩⟩⟩
  have ends := plain.ends_active ((represents.mem_transitionsByPair _).1 step)
  exact ⟨ends.1, ends.2, mt List.map_eq_nil_iff.1 (List.ne_nil_of_mem between)⟩

omit represents in
/-- Transitions between two states join these. -/
theorem ends_of_mem_stepsBetween {pair : Nat × Nat} {step : Transition}
    (member : step ∈ automaton.stepsBetween pair) :
    step.source = automaton.position pair.1 ∧ step.target = automaton.position pair.2 := by
  obtain ⟨symbol, _, rfl⟩ := List.mem_map.1 member
  exact ⟨rfl, rfl⟩

/-- The transitions of a description are those between each pair of joined states in turn. -/
theorem Represents.transitions_toModel :
    automaton.toModel.transitions = (automaton.joinedPairs.map automaton.stepsBetween).flatten := by
  -- Transitions are listed by source, by target and by symbol.
  rw [represents.toModel_eq, ← List.flatMap_def, joinedPairs, List.flatMap_assoc]
  simp only [transitionsByPair, List.map_flatMap, List.flatMap_map, List.map_map]
  rfl

/-- Different pairs of states keep different pairs of numbers. -/
theorem Represents.position_pair_inj {left right : Nat × Nat}
    (leftIn : left ∈ automaton.joinedPairs) (rightIn : right ∈ automaton.joinedPairs)
    (source : automaton.position left.1 = automaton.position right.1)
    (target : automaton.position left.2 = automaton.position right.2) : left = right := by
  -- Active states have positions of their own.
  have apart := represents.strictMonoOn_position.injOn
  obtain ⟨leftSource, leftTarget, _⟩ := represents.of_mem_joinedPairs leftIn
  obtain ⟨rightSource, rightTarget, _⟩ := represents.of_mem_joinedPairs rightIn
  exact Prod.ext (apart leftSource rightSource source) (apart leftTarget rightTarget target)

/-- The groups of transitions that join the same pair are those between each pair of joined states. -/
theorem Represents.splitBy_toModel : automaton.toModel.transitions.splitBy Model.samePair =
    automaton.joinedPairs.map automaton.stepsBetween := by
  rw [represents.transitions_toModel]
  refine List.splitBy_flatten ?_ (fun steps listed => ?_) ?_
  · intro empty
    obtain ⟨pair, member, none⟩ := List.mem_map.1 empty
    exact (represents.of_mem_joinedPairs member).2.2 none
  · -- Within a group all transitions join the same states.
    obtain ⟨pair, _, rfl⟩ := List.mem_map.1 listed
    refine (List.pairwise_of_forall_mem_list fun left leftIn right rightIn => ?_).isChain
    obtain ⟨leftSource, leftTarget⟩ := ends_of_mem_stepsBetween leftIn
    obtain ⟨rightSource, rightTarget⟩ := ends_of_mem_stepsBetween rightIn
    simp [Model.samePair, leftSource, leftTarget, rightSource, rightTarget]
  · -- Where one group ends, another pair of states begins.
    refine List.Pairwise.isChain (List.pairwise_map.2 ?_)
    refine automaton.nodup_joinedPairs.imp_of_mem fun {left right} leftIn rightIn distinct => ?_
    have leftSome := (represents.of_mem_joinedPairs leftIn).2.2
    have rightSome := (represents.of_mem_joinedPairs rightIn).2.2
    refine ⟨leftSome, rightSome, Bool.eq_false_iff.2 fun same => distinct ?_⟩
    obtain ⟨leftSource, leftTarget⟩ := ends_of_mem_stepsBetween (List.getLast_mem leftSome)
    obtain ⟨rightSource, rightTarget⟩ := ends_of_mem_stepsBetween (List.head_mem rightSome)
    simp only [Model.samePair, Bool.and_eq_true, beq_iff_eq, leftSource, leftTarget, rightSource,
      rightTarget] at same
    exact represents.position_pair_inj leftIn rightIn same.1 same.2

/-- Initial states are states. -/
theorem Represents.active_of_initial : ∀ state ∈ automaton.initialStates, state ∈ plain.active :=
  fun state flagged => plain.initial_subset ((represents.mem_initialStates state).1 flagged)

/-- Final states are states. -/
theorem Represents.active_of_final : ∀ state ∈ automaton.finalStates, state ∈ plain.active :=
  fun state flagged => plain.finals_subset ((represents.mem_finalStates state).1 flagged)

/-- The number of a place is listed exactly if the state in the place is flagged. -/
theorem Represents.contains_map_position {flagged : StateSet}
    (states : ∀ state ∈ flagged.toList, state ∈ plain.active) {number state : Nat}
    (placed : automaton.states[number]? = some state) :
    (flagged.toList.map automaton.position).contains number = flagged.contains state := by
  obtain ⟨inside, rfl⟩ := List.getElem?_eq_some_iff.1 placed
  have own : automaton.position automaton.states[number] = number :=
    automaton.nodup_states.idxOf_getElem number inside
  have listed : automaton.states[number] ∈ plain.active :=
    (represents.mem_states _).1 (List.getElem_mem inside)
  rw [Bool.eq_iff_iff, List.contains_iff_mem, List.mem_map, ← StateSet.mem_toList]
  constructor
  · rintro ⟨state, member, same⟩
    -- No other state has this number.
    rw [← own] at same
    exact represents.strictMonoOn_position.injOn (states state member) listed same ▸ member
  · exact fun member => ⟨_, member, own⟩

/-- The number of a place is listed by the flags of the state in the place. -/
theorem Represents.flags_toModel {number state : Nat}
    (placed : automaton.states[number]? = some state) :
    automaton.toModel.initial.contains number = automaton.isInitial state ∧
      automaton.toModel.finals.contains number = automaton.isFinal state := by
  -- A state is flagged where its position is listed.
  rw [represents.toModel_eq]
  exact ⟨represents.contains_map_position represents.active_of_initial placed,
    represents.contains_map_position represents.active_of_final placed⟩

/-- Numbers of states in ascending order are in ascending order. -/
theorem Represents.pairwise_map_position {flagged : List Nat} (ascending : flagged.Pairwise (· < ·))
    (states : ∀ state ∈ flagged, state ∈ plain.active) :
    (flagged.map automaton.position).Pairwise (· < ·) :=
  List.pairwise_map.2 (ascending.imp_of_mem fun leftIn rightIn below =>
    represents.strictMonoOn_position (states _ leftIn) (states _ rightIn) below)

/-- No two edge lines join the same states. -/
theorem Represents.nodup_ends :
    (automaton.toModel.edgeLines.map fun line => (Model.EdgeText.ofLine line).ends).Nodup := by
  -- The ends of an edge give away the pair that it was drawn for.
  rw [Model.edgeLines, represents.splitBy_toModel, List.map_map, List.map_map]
  refine (List.nodup_map_iff_inj_on automaton.nodup_joinedPairs).2 ?_
  intro left leftIn right rightIn same
  have ends : ∀ pair ∈ automaton.joinedPairs,
      (Model.EdgeText.ofLine (Model.edgeLine (automaton.stepsBetween pair))).ends =
        (Text.numeral (automaton.position pair.1), Text.numeral (automaton.position pair.2)) :=
    fun pair member =>
    (Model.expansion_edgeLine (represents.of_mem_joinedPairs member).2.2
      fun _ between => ends_of_mem_stepsBetween between).1
  obtain ⟨source, target⟩ :=
    Prod.mk.inj ((ends left leftIn).symm.trans (same.trans (ends right rightIn)))
  exact represents.position_pair_inj leftIn rightIn (Text.numeral_injective source)
    (Text.numeral_injective target)

/-- The description of an automaton lists flags in ascending order. -/
theorem Represents.ascending_toModel : automaton.toModel.Ascending := by
  -- Positions ascend as the states do.
  have below : ∀ flagged : List Nat, (∀ state ∈ flagged, state ∈ plain.active) →
      ∀ number ∈ flagged.map automaton.position, number < automaton.stateCount := by
    intro flagged states number listed
    obtain ⟨state, member, rfl⟩ := List.mem_map.1 listed
    exact position_lt ((represents.mem_states state).2 (states state member))
  rw [represents.toModel_eq]
  exact {
    initial :=
      represents.pairwise_map_position (StateSet.pairwise_toList _) represents.active_of_initial
    finals :=
      represents.pairwise_map_position (StateSet.pairwise_toList _) represents.active_of_final
    initial_lt := below _ represents.active_of_initial
    finals_lt := below _ represents.active_of_final }

end Represents

/--
A drawing and a model text are written from the same numbers of states and the same edges.

The drawing has a line for each state and then the edge lines; the model text lists the flagged
states and each symbol of each edge.
-/
structure Depicts (automaton : Automaton) (initial finals : List Nat) (edges : List String) : Prop where
  /-- States are drawn in ascending order, styled by the lists, and then the edges. -/
  drawingText : automaton.drawingText = Text.ofLines (Model.opening ++
    (List.range automaton.states.length).map (fun number =>
      Model.nodeText number (initial.contains number) (finals.contains number)) ++
    edges ++ ["\x7d"])
  /-- The lists are printed as they are, and the edges symbol by symbol. -/
  modelText : automaton.modelText = Text.ofLines (
    ["# Alphabet", Text.numeral automaton.alphabetSize,
      "# States", Text.numeral automaton.states.length,
      "# Initial states", Model.numberLine initial,
      "# Final states", Model.numberLine finals,
      "# Transitions", Text.numeral (Model.expandEdges edges).length] ++
    Model.expandEdges edges)
  /-- The state in a place is listed by its flags. -/
  flags : ∀ number state, automaton.states[number]? = some state →
    initial.contains number = automaton.isInitial state ∧
      finals.contains number = automaton.isFinal state
  /-- Edge lines hold no more than what is read of them. -/
  whole : ∀ line ∈ edges, (Model.EdgeText.ofLine line).toLine = line
  /-- No two edge lines join the same states. -/
  ends : (edges.map fun line => (Model.EdgeText.ofLine line).ends).Nodup

/-- The description of an automaton is what its drawing and its model text are written from. -/
theorem Represents.depicts (represents : automaton.Represents plain) :
    automaton.Depicts automaton.toModel.initial automaton.toModel.finals
      automaton.toModel.edgeLines where
  -- The lines of the drawing and those of the model are written from the same numbers.
  drawingText := by
    have nodes : automaton.toModel.nodeLines = _ := List.map_congr_left fun number _ =>
      automaton.toModel.nodeLine_eq number
    rw [drawingText, Model.drawing_eq, nodes, length_states, List.append_assoc, List.append_assoc]
    rfl
  modelText := by
    rw [Model.expandEdges_edgeLines, Model.stepLines, List.length_map, length_states]
    rfl
  flags _ _ placed := represents.flags_toModel placed
  whole line listed := by
    obtain ⟨steps, group, rfl⟩ := List.mem_map.1 listed
    exact Model.toLine_edgeLine (Model.joined_of_mem_splitBy group).1
  ends := represents.nodup_ends

/--
A drawing and a model text carry the same automaton.

They are written from the same numbers and edges, and each of them tells automata over one alphabet
apart exactly as far as the other does.
-/
theorem drawingText_and_modelText (reachable : automaton.Reachable) :
    (∃ initial finals edges, automaton.Depicts initial finals edges) ∧
    ∀ other : Automaton, other.Reachable → other.alphabetSize = automaton.alphabetSize →
      (other.drawingText = automaton.drawingText ↔ other.modelText = automaton.modelText) := by
  obtain ⟨plain, represents⟩ := reachable.exists_represents
  refine ⟨⟨_, _, _, represents.depicts⟩, fun other otherReachable alphabet => ?_⟩
  obtain ⟨otherPlain, otherRepresents⟩ := otherReachable.exists_represents
  rw [drawingText, drawingText, Text.ofLines_inj (Model.lineEnd_notMem_drawing _)
    (Model.lineEnd_notMem_drawing _), modelText, modelText,
    Text.ofLines_inj (Model.lineEnd_notMem_toLines _) (Model.lineEnd_notMem_toLines _)]
  -- Both are texts of the description, and it is told from either of them.
  constructor
  · intro same
    rw [otherRepresents.ascending_toModel.eq_of_drawing represents.ascending_toModel alphabet same]
  · intro same
    rw [Model.toLines_injective same]

/-- A run without gaps that leaves what the other run leaves, far apart. -/
def denseRun : List Shelf.Call := [
  .create 0 (.alphabet 2), .act 0 (.setInitial 0), .act 0 (.setTransition 0 1 0),
  .act 0 (.setTransition 1 1 1), .act 0 (.setTransition 1 2 0), .act 0 (.setFinal 2)]

/-- States far apart are drawn like states without gaps, since their model texts are the same. -/
theorem drawingText_and_modelText_sparse : ∃ sparse dense : Automaton,
    sparse.Reachable ∧ dense.Reachable ∧ dense.alphabetSize = sparse.alphabetSize ∧
    sparse.states = [3, 9, 200] ∧ dense.states = [0, 1, 2] ∧
    (∃ initial finals edges, sparse.Depicts initial finals edges) ∧
    dense.drawingText = sparse.drawingText := by
  -- Both automata are computed, and they have one model.
  have present : ((Shelf.run Automaton sparseRun).1 0).isSome ∧
      ((Shelf.run Automaton denseRun).1 0).isSome := ⟨rfl, rfl⟩
  obtain ⟨sparse, sparseHeld⟩ := Option.isSome_iff_exists.1 present.1
  obtain ⟨dense, denseHeld⟩ := Option.isSome_iff_exists.1 present.2
  have evaluated : ∀ sparse ∈ (Shelf.run Automaton sparseRun).1 0,
      ∀ dense ∈ (Shelf.run Automaton denseRun).1 0,
      sparse.states = [3, 9, 200] ∧ dense.states = [0, 1, 2] ∧ dense.toModel = sparse.toModel := by
    decide +kernel
  obtain ⟨sparseStates, denseStates, same⟩ := evaluated sparse sparseHeld dense denseHeld
  have sparseReachable : sparse.Reachable := ⟨sparseRun, 0, sparseHeld⟩
  have denseReachable : dense.Reachable := ⟨denseRun, 0, denseHeld⟩
  have alphabet : dense.alphabetSize = sparse.alphabetSize := congrArg Model.alphabetSize same
  obtain ⟨depicted, alike⟩ := drawingText_and_modelText sparseReachable
  refine ⟨sparse, dense, sparseReachable, denseReachable, alphabet, sparseStates, denseStates,
    depicted, (alike dense denseReachable alphabet).2 ?_⟩
  rw [modelText, modelText, same]

end Automaton

end NfaInduction
