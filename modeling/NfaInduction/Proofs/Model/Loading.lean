import NfaInduction.Proofs.Automaton.Coherence
import NfaInduction.Proofs.Model.Grammar
import NfaInduction.Proofs.Model.Intake
import NfaInduction.Proofs.Text.Line

/-! A text that follows the grammar is read, and the automaton read from it shows what it lists. -/

namespace NfaInduction

namespace Automaton.Call

/-- States that a call names to be active. -/
def states : Call → List Nat
  | .addState state | .setInitial state | .setFinal state => [state]
  | .setTransition source target _ => [source, target]
  | .merge .. => []

/-- States that a call names to be initial. -/
def initial : Call → List Nat
  | .setInitial state => [state]
  | _ => []

/-- States that a call names to be final. -/
def finals : Call → List Nat
  | .setFinal state => [state]
  | _ => []

/-- Transitions that a call names. -/
def transitions : Call → List Transition
  | .setTransition source target symbol => [⟨source, target, symbol.toNat⟩]
  | _ => []

/-- A call is admitted if it only adds, there is a slot for each state, and its symbol is known. -/
def Admitted (alphabetSize : Nat) : Call → Prop
  | .addState state | .setInitial state | .setFinal state => state < Capacity.maxStates
  | .setTransition source target symbol =>
    source < Capacity.maxStates ∧ target < Capacity.maxStates ∧ symbol.toNat < alphabetSize
  | .merge .. => False

end Automaton.Call

namespace PlainAutomaton

open Automaton (Call)

variable {plain next last : PlainAutomaton} {call : Call} {calls : List Call}

/-- Calls add to an automaton what they name and nothing else. -/
structure Adds (plain : PlainAutomaton) (calls : List Call) (next : PlainAutomaton) : Prop where
  /-- The alphabet stays. -/
  alphabetSize : next.alphabetSize = plain.alphabetSize
  /-- States are added to the states. -/
  active : ∀ state, state ∈ next.active ↔ state ∈ plain.active ∨ state ∈ calls.flatMap Call.states
  /-- Initial states are added to the initial ones. -/
  initial : ∀ state, state ∈ next.initial ↔
    state ∈ plain.initial ∨ state ∈ calls.flatMap Call.initial
  /-- Final states are added to the final ones. -/
  finals : ∀ state, state ∈ next.finals ↔ state ∈ plain.finals ∨ state ∈ calls.flatMap Call.finals
  /-- Transitions are added to the transitions. -/
  transitions : ∀ step, step ∈ next.transitions ↔
    step ∈ plain.transitions ∨ step ∈ calls.flatMap Call.transitions

/-- Without calls nothing is added. -/
theorem Adds.nil (plain : PlainAutomaton) : plain.Adds [] plain := by
  constructor
  all_goals simp

/-- What the first call names is added besides what the others name. -/
theorem Adds.cons (first : plain.Adds [call] next) (others : next.Adds calls last) :
    plain.Adds (call :: calls) last := by
  -- What the first call added stays, and the others add the rest.
  constructor
  case alphabetSize => rw [others.alphabetSize, first.alphabetSize]
  case active => simp [others.active, first.active, or_assoc]
  case initial => simp [others.initial, first.initial, or_assoc]
  case finals => simp [others.finals, first.finals, or_assoc]
  case transitions => simp [others.transitions, first.transitions, or_assoc]

/-- An admitted call has no fault and adds what it names. -/
theorem call_of_admitted (admitted : call.Admitted plain.alphabetSize) :
    (plain.call call).2 = none ∧ plain.Adds [call] (plain.call call).1 := by
  -- There is room for the states, so that no call is refused.
  cases call with
  | addState state | setInitial state | setFinal state =>
    have room : state < Capacity.maxStates := admitted
    rw [PlainAutomaton.call, withRoom, if_pos room]
    refine ⟨rfl, ?_⟩
    constructor
    all_goals simp [Call.states, Call.initial, Call.finals, Call.transitions, or_comm]
  | setTransition source target symbol =>
    obtain ⟨sourceIn, targetIn, inAlphabet⟩ := admitted
    rw [PlainAutomaton.call, dif_pos inAlphabet, withRoom, if_pos sourceIn, withRoom,
      if_pos targetIn]
    refine ⟨rfl, ?_⟩
    constructor
    all_goals simp [Call.states, Call.initial, Call.finals, Call.transitions, or_comm, or_assoc,
      or_left_comm]
  | merge => exact admitted.elim

/-- Admitted calls in a row have no faults and add what they name. -/
theorem adds_foldl (admitted : ∀ call ∈ calls, call.Admitted plain.alphabetSize) :
    plain.Adds calls (calls.foldl (fun plain call => (plain.call call).1) plain) := by
  induction calls generalizing plain with
  | nil => exact .nil plain
  | cons call rest ih =>
    -- No call changes the alphabet, so that the others are still admitted after the first.
    obtain ⟨first, others⟩ := List.forall_mem_cons.1 admitted
    refine (call_of_admitted first).2.cons (ih fun call member => ?_)
    rw [alphabetSize_call]
    exact others call member

end PlainAutomaton

/-- A call without a fault leaves its automaton as the result. -/
theorem Edit.toExcept_of_fault {edit : Edit} (completes : edit.fault = none) :
    edit.toExcept = .ok edit.automaton := by
  -- Without a fault there is nothing to report.
  obtain ⟨automaton, fault⟩ := edit
  cases completes
  rfl

namespace Automaton

variable {automaton : Automaton} {plain : PlainAutomaton}

/-- The automaton after calls in a row, if none of them has a fault. -/
def callAll (automaton : Automaton) (calls : List Call) : Except Fault Automaton :=
  calls.foldlM (fun automaton call => (automaton.call call).toExcept) automaton

/-- Admitted calls in a row run to their ends. -/
theorem Represents.callAll (represents : automaton.Represents plain)
    (roomy : Roomy plain.alphabetSize) {calls : List Call}
    (admitted : ∀ call ∈ calls, call.Admitted plain.alphabetSize) :
    automaton.callAll calls =
      .ok (calls.foldl (fun automaton call => (automaton.call call).automaton) automaton) := by
  induction calls generalizing automaton plain with
  | nil => rfl
  | cons call rest ih =>
    obtain ⟨first, others⟩ := List.forall_mem_cons.1 admitted
    -- The call has the fault that it has on the plain automaton, which is none.
    obtain ⟨after, fault⟩ := represents.call roomy call
    rw [(PlainAutomaton.call_of_admitted first).1] at fault
    have later := ih after (by rwa [PlainAutomaton.alphabetSize_call])
      (by rwa [PlainAutomaton.alphabetSize_call])
    rw [Automaton.callAll, List.foldlM_cons, Edit.toExcept_of_fault fault, List.foldl_cons]
    exact later

/-- An automaton shows exactly what a model lists, whatever the order in the model. -/
structure Shows (automaton : Automaton) (model : Model) : Prop where
  /-- The alphabet is that of the model. -/
  alphabetSize : automaton.alphabetSize = model.alphabetSize
  /-- States are numbered without gaps. -/
  states : automaton.states = List.range model.stateCount
  /-- Initial states are those of the model, each once and in ascending order. -/
  initialStates : automaton.initialStates = model.initial.toFinset.sort
  /-- Final states are those of the model, each once and in ascending order. -/
  finalStates : automaton.finalStates = model.finals.toFinset.sort
  /-- Transitions are those of the model. -/
  mem_transitions : ∀ step, step ∈ automaton.transitions ↔ step ∈ model.transitions
  /-- Transitions are there once, in an order of their own. -/
  transitions_pairwise : automaton.transitions.Pairwise Transition.Before

end Automaton

namespace Model

/-- A model whose numbers keep to their bounds and that is small enough to be built. -/
structure WellFormed (model : Model) : Prop where
  /-- The automaton is small enough. -/
  small : SmallEnough model.alphabetSize model.stateCount
  /-- Initial states are states. -/
  initial : ∀ state ∈ model.initial, state < model.stateCount
  /-- Final states are states. -/
  finals : ∀ state ∈ model.finals, state < model.stateCount
  /-- Transitions join states by symbols. -/
  transitions : ∀ step ∈ model.transitions, step.source < model.stateCount ∧
    step.target < model.stateCount ∧ step.symbol < model.alphabetSize

/-- The automaton that a model describes, built call by call, if none of the calls has a fault. -/
def build (model : Model) : Except Fault Automaton := do
  let blank ← Automaton.ofAlphabet model.alphabetSize
  blank.callAll model.calls

/-- An alphabet leaves room for growth if it is small enough without states. -/
theorem SmallEnough.roomy {alphabetSize : Nat} (small : SmallEnough alphabetSize 0) :
    Automaton.Roomy alphabetSize := by
  -- Seventeen bits for the alphabet leave enough of sixty-four for the largest matrix.
  have narrow := small.alphabetSize_le
  have limit : Capacity.maxStates = 1048576 := rfl
  have words : Word.countFor 1048576 = 16384 := rfl
  refine Option.isSome_iff_exists.2 ⟨_, Capacity.matrixBytes_eq_some.2 ⟨Nat.le_refl _, rfl, ?_⟩⟩
  rw [Capacity.grown_maxStates, limit, words, UInt64.size]
  omega

/-- What is small enough with states is small enough without. -/
theorem SmallEnough.of_states {alphabetSize stateCount : Nat}
    (small : SmallEnough alphabetSize stateCount) : SmallEnough alphabetSize 0 := by
  obtain ⟨bytes, taken, few⟩ := small
  obtain ⟨_, rfl, below⟩ := Capacity.matrixBytes_eq_some.1 taken
  -- The least capacity is one block, and every capacity has one.
  have least : Capacity.grown 0 ≤ Capacity.grown stateCount := by
    have block : Capacity.grown 0 = Capacity.block := by decide +kernel
    rw [block]
    exact Nat.le_max_right _ _
  have fewer := Nat.mul_le_mul_right 8 (Nat.mul_le_mul (Nat.mul_le_mul_right alphabetSize least)
    (Word.countFor_le least))
  exact ⟨_, Capacity.matrixBytes_eq_some.2 ⟨Nat.zero_le _, rfl, by omega⟩, by omega⟩

/-- What all results of a list show holds of each result. -/
theorem forall_of_forall₂ {α β : Type} {holds : α → β → Prop} {shown : β → Prop} {items : List α}
    {results : List β} (all : List.Forall₂ holds items results)
    (each : ∀ item result, holds item result → shown result) : ∀ result ∈ results, shown result :=
  ((List.forall₂_and_left results items).1
    (all.flip.imp fun result item held => ⟨each item result held, held⟩)).1

/-- A model that lines describe is well formed. -/
theorem Describes.wellFormed {texts : List String} {model : Model}
    (described : Describes texts model) : model.WellFormed := by
  -- The reader compared each state and each symbol with the numbers in the header.
  cases described with
  | intro _ _ _ _ _ _ relationSmall initialStates finalStates _ _ transitions =>
    constructor
    case small => exact relationSmall
    case initial => exact forall_of_forall₂ initialStates fun _ _ named => named.2
    case finals => exact forall_of_forall₂ finalStates fun _ _ named => named.2
    case transitions =>
      refine forall_of_forall₂ transitions fun _ _ held => ?_
      obtain ⟨_, _, _, _, source, target, symbol⟩ := held
      exact ⟨source.2, target.2, symbol.2⟩

/-- A model that is read from lines is well formed, for all of them are text. -/
theorem wellFormed_of_ofLines {lines : List Line} {model : Model} (read : ofLines lines = .ok model) :
    model.WellFormed := by
  obtain ⟨texts, rfl⟩ := Intake.exists_texts_of_read ((ofLines_eq_read lines).symm.trans read)
  exact (ofLines_eq_ok.1 read).wellFormed

namespace WellFormed

variable {model : Model}

/-- A well-formed model has no more states than there are slots. -/
theorem stateCount_le (formed : model.WellFormed) : model.stateCount ≤ Capacity.maxStates := by
  obtain ⟨_, taken, _⟩ := formed.small
  exact (Capacity.matrixBytes_eq_some.1 taken).1

/-- A symbol of a well-formed model is the number of a word. -/
theorem toNat_symbol (formed : model.WellFormed) {step : Automaton.Transition}
    (member : step ∈ model.transitions) : (UInt32.ofNat step.symbol).toNat = step.symbol := by
  -- An alphabet with such matrices has no more symbols than there are words for.
  have inAlphabet := (formed.transitions step member).2.2
  have narrow := formed.small.of_states.alphabetSize_le
  exact UInt32.toNat_ofNat_of_lt' (by rw [UInt32.size]; omega)

/-- The calls that build a well-formed model are admitted. -/
theorem admitted (formed : model.WellFormed) :
    ∀ call ∈ model.calls, call.Admitted model.alphabetSize := by
  -- Each call comes from one item of the model, and names states below the count only.
  have limit := formed.stateCount_le
  intro call member
  simp only [Model.calls, List.mem_append, List.mem_map, List.mem_range] at member
  rcases member with ((⟨state, below, rfl⟩ | ⟨state, flagged, rfl⟩) | ⟨state, flagged, rfl⟩) |
    ⟨step, listed, rfl⟩
  · exact Nat.lt_of_lt_of_le below limit
  · exact Nat.lt_of_lt_of_le (formed.initial state flagged) limit
  · exact Nat.lt_of_lt_of_le (formed.finals state flagged) limit
  · obtain ⟨source, target, symbol⟩ := formed.transitions step listed
    refine ⟨Nat.lt_of_lt_of_le source limit, Nat.lt_of_lt_of_le target limit, ?_⟩
    rwa [formed.toNat_symbol listed]

/-- The plain automaton with the states, flags and transitions of a well-formed model. -/
@[simps] def plain (formed : model.WellFormed) : PlainAutomaton where
  alphabetSize := model.alphabetSize
  active := Finset.range model.stateCount
  initial := model.initial.toFinset
  finals := model.finals.toFinset
  transitions := model.transitions.toFinset
  initial_subset state member :=
    Finset.mem_range.2 (formed.initial state (List.mem_toFinset.1 member))
  finals_subset state member :=
    Finset.mem_range.2 (formed.finals state (List.mem_toFinset.1 member))
  source_active step member :=
    Finset.mem_range.2 (formed.transitions step (List.mem_toFinset.1 member)).1
  target_active step member :=
    Finset.mem_range.2 (formed.transitions step (List.mem_toFinset.1 member)).2.1
  symbol_lt step member := (formed.transitions step (List.mem_toFinset.1 member)).2.2

/-- The calls of a well-formed model name the numbers below the count as states. -/
theorem mem_states_calls (formed : model.WellFormed) (state : Nat) :
    state ∈ model.calls.flatMap Automaton.Call.states ↔ state < model.stateCount := by
  constructor
  · intro named
    simp only [Model.calls, List.flatMap_append, List.flatMap_map, List.mem_append,
      List.mem_flatMap, Automaton.Call.states, List.mem_singleton, List.mem_pair] at named
    -- Flags and transitions name no states besides those that are added before.
    rcases named with ((⟨_, below, rfl⟩ | ⟨_, flagged, rfl⟩) | ⟨_, flagged, rfl⟩) |
      ⟨step, listed, same⟩
    · exact List.mem_range.1 below
    · exact formed.initial state flagged
    · exact formed.finals state flagged
    · have ends := formed.transitions step listed
      rcases same with rfl | rfl
      · exact ends.1
      · exact ends.2.1
  · intro below
    refine List.mem_flatMap.2 ⟨.addState state, ?_, List.mem_singleton_self state⟩
    simp [Model.calls, below]

/-- The calls of a well-formed model name its transitions. -/
theorem transitions_calls (formed : model.WellFormed) :
    model.calls.flatMap Automaton.Call.transitions = model.transitions := by
  have named : model.calls.flatMap Automaton.Call.transitions = model.transitions.map fun step =>
      ⟨step.source, step.target, (UInt32.ofNat step.symbol).toNat⟩ := by
    -- The calls for states and flags name none.
    have nothing (states : List Nat) :
        states.flatMap (fun _ => ([] : List Automaton.Transition)) = [] :=
      List.flatMap_eq_nil_iff.2 fun _ _ => rfl
    rw [List.map_eq_flatMap]
    simp [Model.calls, List.flatMap_map, Automaton.Call.transitions, nothing]
  rw [named]
  -- Symbols of the alphabet are not cut off when they are put into words.
  conv => rhs; rw [← List.map_id model.transitions]
  refine List.map_congr_left fun step member => ?_
  rw [formed.toNat_symbol member, id]

/-- The calls of a well-formed model lead to what it lists. -/
theorem toPlain_eq (formed : model.WellFormed) : model.toPlain = formed.plain := by
  have admitted : ∀ call ∈ model.calls,
      call.Admitted (PlainAutomaton.empty model.alphabetSize).alphabetSize := formed.admitted
  -- Nothing was there before the calls, so that what they name is all there is.
  have adds : (PlainAutomaton.empty model.alphabetSize).Adds model.calls model.toPlain :=
    PlainAutomaton.adds_foldl admitted
  ext1
  case alphabet => exact adds.alphabetSize
  case active =>
    ext state
    rw [adds.active, formed.mem_states_calls]
    simp
  case initial =>
    ext state
    rw [adds.initial]
    simp [Model.calls, List.flatMap_map, Automaton.Call.initial]
  case finals =>
    ext state
    rw [adds.finals]
    simp [Model.calls, List.flatMap_map, Automaton.Call.finals]
  case transitions =>
    ext step
    rw [adds.transitions, formed.transitions_calls]
    simp

/-- The automaton of a well-formed model stands for what the model lists. -/
theorem represents (formed : model.WellFormed) : model.toAutomaton.Represents formed.plain := by
  rw [← formed.toPlain_eq]
  exact (Automaton.represents_toPlain formed.small.of_states.roomy).1

/-- Nothing fails while the automaton of a well-formed model is built. -/
theorem build_eq_ok (formed : model.WellFormed) : model.build = .ok model.toAutomaton := by
  -- All calls are admitted, one after the other.
  have roomy := formed.small.of_states.roomy
  have blank := Automaton.represents_blank model.alphabetSize
  rw [build, Automaton.ofAlphabet_of_roomy roomy, Model.toAutomaton_eq]
  exact blank.callAll roomy formed.admitted

/-- The automaton of a well-formed model shows what the model lists. -/
theorem shows (formed : model.WellFormed) : model.toAutomaton.Shows model := by
  -- The reports of the automaton are those of the plain one, which was built from the model.
  have reports := formed.represents.reports
  constructor
  case alphabetSize => exact reports.alphabetSize
  case states => exact reports.states.trans (Finset.sort_range model.stateCount)
  case initialStates => exact reports.initialStates
  case finalStates => exact reports.finalStates
  case mem_transitions => exact fun step => (reports.mem_transitions step).trans List.mem_toFinset
  case transitions_pairwise => exact reports.transitions_pairwise

end WellFormed

end Model

namespace Automaton

/-- A text is read as the automaton of the model that its lines describe, or not at all. -/
theorem ofModelBytes_eq_ok {bytes : ByteArray} {texts : List String} {automaton : Automaton}
    (valid : Text.lines bytes = texts.map .ok) :
    ofModelBytes bytes = .ok automaton ↔
      ∃ model, Model.Describes texts model ∧ model.toAutomaton = automaton := by
  -- The grammar has one model at most for a text.
  rw [ofModelBytes, ofModelLines, valid]
  cases outcome : Model.ofLines (texts.map .ok) with
  | ok model =>
    have described := Model.ofLines_eq_ok.1 outcome
    constructor
    · intro read
      exact ⟨model, described, Except.ok.inj read⟩
    · intro described
      obtain ⟨other, same, rfl⟩ := described
      rw [Model.ofLines_eq_ok.2 same] at outcome
      rw [Except.ok.inj outcome]
      rfl
  | error =>
    constructor
    · intro read
      cases read
    · intro described
      obtain ⟨other, same, _⟩ := described
      rw [Model.ofLines_eq_ok.2 same] at outcome
      cases outcome

/--
A text of valid lines is read exactly if the lines follow the grammar.

What is read is built without a fault, and shows what the lines list.
-/
theorem ofModelBytes_grammar {bytes : ByteArray} {texts : List String}
    (valid : Text.lines bytes = texts.map .ok) :
    ((∃ automaton, ofModelBytes bytes = .ok automaton) ↔ ∃ model, Model.Describes texts model) ∧
    ∀ automaton model, ofModelBytes bytes = .ok automaton → Model.Describes texts model →
      model.build = .ok automaton ∧ automaton.Shows model := by
  -- The text is read to the model that the grammar has for it.
  refine ⟨?_, fun automaton model read described => ?_⟩
  · constructor
    · intro read
      obtain ⟨automaton, read⟩ := read
      obtain ⟨model, described, _⟩ := (ofModelBytes_eq_ok valid).1 read
      exact ⟨model, described⟩
    · intro described
      obtain ⟨model, described⟩ := described
      exact ⟨_, (ofModelBytes_eq_ok valid).2 ⟨model, described, rfl⟩⟩
  · have same := (ofModelBytes_eq_ok valid).2 ⟨model, described, rfl⟩
    obtain rfl : automaton = model.toAutomaton := Except.ok.inj (read.symm.trans same)
    exact ⟨described.wellFormed.build_eq_ok, described.wellFormed.shows⟩

/-- A text with comments, blank lines, a blank line of flags and a transition listed twice. -/
def listedTwice : List String := [
  "# Alphabet", "  2 ", "", "# States", "3", "", "# Final states", "2 0 2", "   ", "+3", "1 2 1",
  "  # the next line comes first", "0 1 0", "", "1 2 1"]

/-- The blank line of flags counts, and the transition listed twice is there once. -/
theorem ofModelBytes_grammar_twice :
    Text.lines (Text.ofLines listedTwice).toUTF8 = listedTwice.map .ok ∧
    ∃ automaton, ofModelBytes (Text.ofLines listedTwice).toUTF8 = .ok automaton ∧
      automaton.states = [0, 1, 2] ∧ automaton.initialStates = [] ∧
      automaton.finalStates = [0, 2] ∧ automaton.transitions = [⟨0, 1, 0⟩, ⟨1, 2, 1⟩] := by
  -- The text is read, and what is shown for the model is sorted without repetitions.
  have valid : Text.lines (Text.ofLines listedTwice).toUTF8 = listedTwice.map .ok :=
    Text.lines_ofLines (by decide)
  have described : Model.Describes listedTwice
      ⟨2, 3, [], [2, 0, 2], [⟨1, 2, 1⟩, ⟨0, 1, 0⟩, ⟨1, 2, 1⟩]⟩ :=
    Model.ofLines_eq_ok.1 (by decide +kernel)
  obtain ⟨grammar, outcome⟩ := ofModelBytes_grammar valid
  obtain ⟨automaton, read⟩ := grammar.2 ⟨_, described⟩
  obtain ⟨_, shown⟩ := outcome automaton _ read described
  refine ⟨valid, automaton, read, shown.states, ?_, ?_, ?_⟩
  · rw [shown.initialStates]
    exact Finset.sort_empty _
  · rw [shown.finalStates]
    refine (Finset.sortedLT_sort _).pairwise.eq_of_mem_iff (by decide) fun state => ?_
    simp [or_comm]
  · refine shown.transitions_pairwise.eq_of_mem_iff (by simp [Transition.Before]) fun step => ?_
    rw [shown.mem_transitions]
    simp only [List.mem_cons, List.not_mem_nil, or_false, or_left_comm, or_self]

end Automaton

end NfaInduction
