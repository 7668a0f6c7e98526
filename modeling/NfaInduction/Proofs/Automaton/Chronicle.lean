import Mathlib.Order.Bounds.Basic
import NfaInduction.Proofs.Automaton.Growth
import NfaInduction.Proofs.Model.Loading

/-! An automaton takes the bytes that are foretold for the highest slot that was ever in use in it. -/

namespace NfaInduction

/-- An automaton with the slots that were ever in use, there or where it was copied from. -/
structure Chronicle where
  /-- The automaton as it is. -/
  automaton : Automaton
  /-- Slots in use at some time. -/
  seen : Finset Nat

namespace Chronicle

/-- The chronicle of a new automaton. -/
def start (automaton : Automaton) : Chronicle := ⟨automaton, ∅⟩

/-- A call adds the slots in use after it, and forgets none. -/
def call (chronicle : Chronicle) (call : Automaton.Call) : Chronicle :=
  let after := (chronicle.automaton.call call).automaton
  ⟨after, chronicle.seen ∪ after.usedSlots⟩

/-- The chronicle of the automaton that a model describes goes back to where it had no states. -/
def ofModel (model : Model) : Chronicle :=
  model.calls.foldl Chronicle.call (start (.blank model.alphabetSize))

/-- Chronicles are edited as their automata are. -/
instance : Editable Chronicle where
  make alphabetSize := (Automaton.ofAlphabet alphabetSize).map start
  ofModel := ofModel
  edit chronicle call := (chronicle.call call, (chronicle.automaton.call call).fault)

/-- Calls in a row leave the automaton that they leave without a chronicle. -/
theorem automaton_foldl (calls : List Automaton.Call) (chronicle : Chronicle) :
    (calls.foldl Chronicle.call chronicle).automaton =
      calls.foldl (fun automaton call => (automaton.call call).automaton) chronicle.automaton := by
  -- The induction goes along the calls, each of which is the same on the automaton.
  induction calls generalizing chronicle with
  | nil => rfl
  | cons call rest hypothesis => exact hypothesis (chronicle.call call)

/-- The chronicle of a model is that of its automaton. -/
theorem automaton_ofModel (model : Model) : (ofModel model).automaton = model.toAutomaton := by
  rw [ofModel, automaton_foldl, Model.toAutomaton_eq]
  rfl

/-- A chronicle has no influence on its automaton. -/
theorem rules_follow :
    (Shelf.rules Chronicle).Follows Chronicle.automaton (Shelf.rules Automaton) where
  -- The automaton of a new chronicle is the new one, and calls are those on it.
  make origin := by
    cases origin with
    | alphabet size =>
      have made : (Editable.make size : Except Fault Chronicle) =
          (Automaton.ofAlphabet size).map start := rfl
      have plain : (Editable.make size : Except Fault Automaton) = Automaton.ofAlphabet size := rfl
      simp only [Shelf.rules, Shelf.Origin.make, made, plain]
      cases Automaton.ofAlphabet size <;> rfl
    | text lines =>
      simp only [Shelf.rules, Shelf.Origin.make]
      cases Model.ofLines lines with
      | error => rfl
      | ok model => exact congrArg Rack.fresh (automaton_ofModel model)
  act _ _ := rfl
  join pairing := pairing.elim

/-- A run of calls is what is seen of its chronicles. -/
theorem run_eq_seen (calls : List Shelf.Call) : Shelf.run Automaton calls =
    (Rack.seen automaton (Shelf.run Chronicle calls).1, (Shelf.run Chronicle calls).2) := by
  rw [Shelf.run, ← rules_follow.run]
  rfl

/-- The room of an automaton is what the slots call for that were ever in use. -/
structure Sound (chronicle : Chronicle) : Prop where
  /-- The automaton is well kept. -/
  represents : ∃ plain, chronicle.automaton.Represents plain
  /-- Slots in use are no exception. -/
  used : chronicle.automaton.usedSlots ⊆ chronicle.seen
  /-- There was no other reason to grow. -/
  maxStates : chronicle.automaton.maxStates = Capacity.grown (Capacity.span chronicle.seen)

/-- A chronicle that starts without states is sound. -/
theorem sound_start (alphabetSize : Nat) : (start (.blank alphabetSize)).Sound where
  -- A new automaton has one block, which is what no slot calls for.
  represents := ⟨_, Automaton.represents_blank alphabetSize⟩
  used := (Automaton.represents_blank alphabetSize).usedSlots_eq.subset
  maxStates := by
    have block : Capacity.grown 0 = Capacity.block := by decide +kernel
    show (StateSet.ofCapacity Capacity.block).capacity = Capacity.grown (Capacity.span ∅)
    rw [StateSet.capacity_ofCapacity, Capacity.reached_block.countFor_mul]
    exact block.symm

/-- Every call keeps a chronicle sound. -/
theorem Sound.call {chronicle : Chronicle} (sound : chronicle.Sound) (call : Automaton.Call) :
    (chronicle.call call).Sound := by
  obtain ⟨plain, represents⟩ := sound.represents
  have widened := represents.widened_call call
  constructor
  case represents => exact represents.exists_call call
  case used => exact Finset.subset_union_right
  case maxStates =>
    -- What was called for before is still called for.
    rw [Automaton.Widened, sound.maxStates, ← Capacity.grown_max, ← Capacity.span_union] at widened
    exact widened

/-- Calls in a row keep a chronicle sound. -/
theorem Sound.foldl {chronicle : Chronicle} (sound : chronicle.Sound)
    (calls : List Automaton.Call) : (calls.foldl Chronicle.call chronicle).Sound := by
  -- The induction goes along the calls.
  induction calls generalizing chronicle with
  | nil => exact sound
  | cons call rest hypothesis => exact hypothesis (sound.call call)

/-- Chronicles are sound throughout any run. -/
theorem lasts_sound : Shelf.Lasts Sound where
  -- New chronicles start without states, and those of models are led there by calls.
  make alphabetSize chronicle built := by
    change ((TransitionMatrix.ofCapacity alphabetSize Capacity.block).map .ofMatrix).map start =
      .ok chronicle at built
    rw [TransitionMatrix.ofCapacity] at built
    split at built
    · cases built
      exact sound_start alphabetSize
    · cases built
  ofModel model := (sound_start model.alphabetSize).foldl model.calls
  edit _ call sound := sound.call call

end Chronicle

namespace Capacity

/-- Bytes of the rows of one direction, with a bit for each state and symbol and each other state. -/
def relationBytes (alphabetSize states : Nat) : Nat :=
  grown states * alphabetSize * (grown states / Word.width) * 8

/-- The bytes are foretold if there are slots for the states and they can be counted. -/
theorem matrixBytes_eq_relationBytes {alphabetSize states bytes : Nat} :
    matrixBytes alphabetSize states = some bytes ↔ states ≤ maxStates ∧
      relationBytes alphabetSize states < UInt64.size ∧ bytes = relationBytes alphabetSize states := by
  -- A capacity has whole words, which makes both counts the same.
  rw [matrixBytes_eq_some, countFor_grown, relationBytes]
  constructor
  · intro counted
    obtain ⟨admitted, rfl, below⟩ := counted
    exact ⟨admitted, below, rfl⟩
  · intro counted
    obtain ⟨admitted, below, rfl⟩ := counted
    exact ⟨admitted, rfl, below⟩

end Capacity

namespace Automaton

/-- An automaton is as large as some number of slots calls for. -/
structure Sized (automaton : Automaton) (slots : Nat) : Prop where
  /-- There is room for the slots. -/
  maxStates : automaton.maxStates = Capacity.grown slots
  /-- The room is a block doubled some times. -/
  doubled : ∃ doublings, automaton.maxStates = Capacity.block <<< doublings
  /-- All sets have this room. -/
  active : automaton.active.capacity = automaton.maxStates
  /-- All sets have this room. -/
  initial : automaton.initial.capacity = automaton.maxStates
  /-- All sets have this room. -/
  finals : automaton.finals.capacity = automaton.maxStates
  /-- One direction takes the bytes that are computed from the number of slots. -/
  predecessors : automaton.predecessors.heapBytes =
    Capacity.relationBytes automaton.alphabetSize slots
  /-- The other direction takes as many. -/
  successors : automaton.successors.heapBytes = Capacity.relationBytes automaton.alphabetSize slots
  /-- The sets take a bit for each slot. -/
  heapBytes : automaton.heapBytes = 3 * automaton.maxStates / 8 +
    2 * Capacity.relationBytes automaton.alphabetSize slots
  /-- The bytes are foretold if they can be counted. -/
  matrixBytes : Capacity.relationBytes automaton.alphabetSize slots < UInt64.size →
    Capacity.matrixBytes automaton.alphabetSize slots =
      some (Capacity.relationBytes automaton.alphabetSize slots)

/-- A matrix with the room that some slots call for takes the bytes that are computed from them. -/
theorem heapBytes_eq_relationBytes {matrix : TransitionMatrix} {slots : Nat}
    (room : matrix.capacity = Capacity.grown slots) :
    matrix.heapBytes = Capacity.relationBytes matrix.alphabetSize slots := by
  rw [TransitionMatrix.heapBytes, matrix.size_rows, room, Capacity.countFor_grown,
    Capacity.relationBytes]

/-- All parts of an automaton are as large as its room. -/
theorem Shaped.sized {automaton : Automaton} (shaped : automaton.Shaped) {slots : Nat}
    (room : automaton.maxStates = Capacity.grown slots) : automaton.Sized slots := by
  -- Both directions have rows of the same size for the same states.
  have predecessors := heapBytes_eq_relationBytes (shaped.predecessors.trans room)
  have successors := heapBytes_eq_relationBytes (shaped.successors.trans room)
  rw [shaped.alphabet] at predecessors
  constructor
  case maxStates => exact room
  case doubled =>
    obtain ⟨doublings, _, same⟩ := shaped.reached
    exact ⟨doublings, same⟩
  case active => rfl
  case initial => exact shaped.initial
  case finals => exact shaped.finals
  case predecessors => exact predecessors
  case successors => exact successors
  case heapBytes =>
    -- Each of the sets takes as many words as the room has, at eight bytes a word.
    have initial := shaped.initial
    have finals := shaped.finals
    rw [Automaton.heapBytes, predecessors, successors]
    simp only [StateSet.heapBytes, Automaton.maxStates, StateSet.capacity, Word.width, alphabetSize]
      at initial finals ⊢
    omega
  -- Where the count of bytes that is foretold does not overflow, it is the same number.
  case matrixBytes =>
    intro counted
    have admitted := Nat.le_trans (Capacity.le_grown slots) (room ▸ shaped.reached.bounds.2)
    exact Capacity.matrixBytes_eq_relationBytes.2 ⟨admitted, counted, rfl⟩

end Automaton

namespace PlainAutomaton

/-- Whether there is room or not, no more states are active than in either case. -/
theorem active_withRoom_subset {plain : PlainAutomaton} {next : PlainAutomaton × Option Fault}
    {states : Finset Nat} (before : plain.active ⊆ states) (after : next.1.active ⊆ states)
    (state : Nat) : (plain.withRoom state next).1.active ⊆ states := by
  -- The next automaton is taken if there is room, and else the old one.
  rw [withRoom]
  split
  · exact after
  · exact before

/-- A merge makes no state active, whatever becomes of it. -/
theorem active_call_merge_subset (plain : PlainAutomaton) (kept absorbed : Nat) :
    (plain.call (.merge kept absorbed)).1.active ⊆ plain.active := by
  -- The absorbed state is all that a merge removes, if it does anything.
  rw [PlainAutomaton.call]
  by_cases keptIn : kept ∈ plain.active
  · rw [if_neg (not_not_intro keptIn)]
    split
    · exact Finset.Subset.refl _
    · split
      · exact Finset.Subset.refl _
      · rename_i distinct
        have fewer := Finset.erase_subset absorbed plain.active
        rwa [← Automaton.image_standIn keptIn distinct] at fewer
  · rw [if_pos keptIn]

/-- A call makes no other states active than those it names. -/
theorem active_call_subset (plain : PlainAutomaton) (call : Automaton.Call) :
    (plain.call call).1.active ⊆ plain.active ∪ call.states.toFinset := by
  -- There is a case for each call, where a transition names two states.
  have before : plain.active ⊆ plain.active ∪ call.states.toFinset := Finset.subset_union_left
  cases call with
  | addState state | setInitial state | setFinal state =>
    refine active_withRoom_subset before (Finset.insert_subset ?_ before) state
    exact Finset.mem_union_right _ (List.mem_toFinset.2 (List.mem_singleton_self state))
  | setTransition source target symbol =>
    rw [PlainAutomaton.call]
    split
    · have named : source ∈ plain.active ∪ [source, target].toFinset ∧
          target ∈ plain.active ∪ [source, target].toFinset := by simp
      have first := Finset.insert_subset named.1 before
      have second := Finset.insert_subset named.2 first
      exact active_withRoom_subset before (active_withRoom_subset first second target) source
    · exact before
  | merge kept absorbed => exact (plain.active_call_merge_subset kept absorbed).trans before

end PlainAutomaton

namespace Chronicle

/-- A merge adds nothing to what was seen. -/
theorem Sound.seen_merge {chronicle : Chronicle} (sound : chronicle.Sound) (kept absorbed : Nat) :
    (chronicle.call (.merge kept absorbed)).seen = chronicle.seen := by
  -- The slots in use after a merge were in use before it.
  obtain ⟨plain, represents⟩ := sound.represents
  have after := (represents.matches_merge kept absorbed).1.usedSlots_eq
  have used := sound.used
  rw [represents.usedSlots_eq] at used
  exact Finset.union_eq_left.2 (after ▸ (plain.active_call_merge_subset kept absorbed).trans used)

/-- Slots that no call names are not taken into use by the calls. -/
theorem lt_of_mem_seen_foldl {chronicle : Chronicle} {plain : PlainAutomaton}
    (represents : chronicle.automaton.Represents plain)
    (roomy : Automaton.Roomy plain.alphabetSize) {bound : Nat}
    (before : ∀ slot ∈ chronicle.seen, slot < bound) (active : ∀ state ∈ plain.active, state < bound)
    {calls : List Automaton.Call}
    (named : ∀ state ∈ calls.flatMap Automaton.Call.states, state < bound) :
    ∀ slot ∈ (calls.foldl Chronicle.call chronicle).seen, slot < bound := by
  -- The induction follows the calls, and the plain automaton tells which slots each of them uses.
  induction calls generalizing chronicle plain with
  | nil => exact before
  | cons call rest hypothesis =>
    rw [List.flatMap_cons, List.forall_mem_append] at named
    obtain ⟨first, others⟩ := named
    have after := (represents.call roomy call).1
    have next : ∀ state ∈ (plain.call call).1.active, state < bound := by
      intro state member
      rcases Finset.mem_union.1 (plain.active_call_subset call member) with kept | taken
      · exact active state kept
      · exact first state (List.mem_toFinset.1 taken)
    refine hypothesis after (by rwa [PlainAutomaton.alphabetSize_call]) ?_ next others
    intro slot member
    rcases Finset.mem_union.1 member with earlier | used
    · exact before slot earlier
    · exact next slot (after.usedSlots_eq ▸ used)

end Chronicle

namespace Model

variable {model : Model}

/-- While a well-formed model is built, the slots in use are those of its states. -/
theorem WellFormed.span_seen (formed : model.WellFormed) :
    Capacity.span (Chronicle.ofModel model).seen = model.stateCount := by
  refine Nat.le_antisymm (Capacity.span_le_iff.2 ?_) ?_
  · exact Chronicle.lt_of_mem_seen_foldl (Automaton.represents_blank model.alphabetSize)
      formed.small.of_states.roomy (Finset.forall_mem_empty_iff _ |>.2 trivial)
      (Finset.forall_mem_empty_iff _ |>.2 trivial)
      fun state named => (formed.mem_states_calls state).1 named
  · -- In the end all of the states are there.
    have used := (Chronicle.lasts_sound.ofModel model).used
    change (Chronicle.ofModel model).automaton.usedSlots ⊆ (Chronicle.ofModel model).seen at used
    rw [Chronicle.automaton_ofModel, formed.represents.usedSlots_eq] at used
    exact (Capacity.span_range model.stateCount).symm.trans_le (Capacity.span_mono used)

/-- The automaton of a well-formed model is as large as its number of states calls for. -/
theorem WellFormed.sized (formed : model.WellFormed) : model.toAutomaton.Sized model.stateCount := by
  -- The slots of the states are what the room is made for.
  have room : (Chronicle.ofModel model).automaton.maxStates = _ :=
    (Chronicle.lasts_sound.ofModel model).maxStates
  change _ = Capacity.grown (Capacity.span (Chronicle.ofModel model).seen) at room
  rw [Chronicle.automaton_ofModel, formed.span_seen] at room
  exact formed.represents.shaped.sized room

end Model

namespace Automaton

/-- What is read from text takes the bytes that the reader has foretold, and no more than it admits. -/
theorem heapBytes_of_ofModelBytes {bytes : ByteArray} {automaton : Automaton}
    (read : ofModelBytes bytes = .ok automaton) :
    ∃ foretold, Capacity.matrixBytes automaton.alphabetSize automaton.stateCount = some foretold ∧
      foretold ≤ Capacity.maxMatrixBytes ∧ automaton.predecessors.heapBytes = foretold ∧
      automaton.successors.heapBytes = foretold := by
  -- What was foretold for the model was counted and found small enough.
  obtain ⟨model, described, rfl⟩ := map_eq_ok.1 read
  have formed := Model.wellFormed_of_ofLines described
  have sized := formed.sized
  have alphabet : model.toAutomaton.alphabetSize = model.alphabetSize := formed.represents.alphabet
  have count : model.toAutomaton.stateCount = model.stateCount :=
    formed.represents.reports.stateCount.trans (Finset.card_range model.stateCount)
  obtain ⟨foretold, taken, few⟩ := formed.small
  obtain ⟨_, _, rfl⟩ := Capacity.matrixBytes_eq_relationBytes.1 taken
  rw [count, sized.predecessors, sized.successors, alphabet]
  exact ⟨_, taken, few, rfl, rfl⟩

end Automaton

namespace Chronicle

/--
The bytes that are foretold for a number of slots are those that growth leads to.

The highest slot that was ever in use decides on the room of an automaton and on its bytes.
-/
theorem sized_run :
    (∀ calls, Shelf.run Automaton calls =
      (Rack.seen automaton (Shelf.run Chronicle calls).1, (Shelf.run Chronicle calls).2)) ∧
    (∀ calls place chronicle, (Shelf.run Chronicle calls).1 place = some chronicle →
      (∀ highest, IsGreatest (chronicle.seen : Set Nat) highest →
        chronicle.automaton.Sized (highest + 1)) ∧
      (chronicle.seen = ∅ →
        chronicle.automaton.Sized 0 ∧ chronicle.automaton.maxStates = Capacity.block)) ∧
    (∀ alphabetSize states bytes, Capacity.matrixBytes alphabetSize states = some bytes ↔
      states ≤ Capacity.maxStates ∧
      Capacity.relationBytes alphabetSize states < UInt64.size ∧
      bytes = Capacity.relationBytes alphabetSize states) ∧
    ∀ bytes automaton, Automaton.ofModelBytes bytes = .ok automaton →
      automaton.predecessors.heapBytes ≤ Capacity.maxMatrixBytes ∧
      automaton.successors.heapBytes ≤ Capacity.maxMatrixBytes := by
  refine ⟨run_eq_seen, fun calls place chronicle held => ?_,
    fun _ _ _ => Capacity.matrixBytes_eq_relationBytes, fun bytes loaded read => ?_⟩
  · -- The slots that were seen decide on the room, and the room decides on the bytes.
    have sound := lasts_sound.run calls place chronicle held
    obtain ⟨_, represents⟩ := sound.represents
    have sized := represents.shaped.sized sound.maxStates
    refine ⟨fun highest greatest => ?_, fun none => ?_⟩
    · rwa [Capacity.span_of_isGreatest greatest] at sized
    · rw [none] at sized
      exact ⟨sized, sized.maxStates.trans (by decide +kernel)⟩
  · obtain ⟨foretold, _, few, predecessors, successors⟩ := Automaton.heapBytes_of_ofModelBytes read
    rw [predecessors, successors]
    exact ⟨few, few⟩

/-- A run with growth, a merge that frees the highest slot, and a copy. -/
def freedRun : List Shelf.Call := [
  .create 0 (.alphabet 1), .act 0 (.addState 300), .act 0 (.addState 0), .act 0 (.merge 0 300), .copy 0 1]

/-- The copy has one state, and keeps the room for the slot that was freed before. -/
theorem sized_run_freed : ∃ automaton, (Shelf.run Automaton freedRun).1 1 = some automaton ∧
    automaton.isActive 300 = false ∧ automaton.maxStates = 512 ∧
    automaton.heapBytes = 192 + 2 * 32768 := by
  -- Slots 0 and 300 were in use, and the highest of them decides the size.
  obtain ⟨same, sized, _⟩ := sized_run
  have reached : ((Shelf.run Chronicle freedRun).1 1).map (·.seen) = some {0, 300} := by
    decide +kernel
  obtain ⟨chronicle, held, seen⟩ := Option.map_eq_some_iff.1 reached
  have present : (Shelf.run Automaton freedRun).1 1 = some chronicle.automaton := by
    rw [same]
    exact congrArg (Option.map automaton) held
  have greatest : IsGreatest (chronicle.seen : Set Nat) 300 := by
    rw [seen]
    exact ⟨by simp, by simp [upperBounds]⟩
  have sized := (sized freedRun 1 chronicle held).1 300 greatest
  have room : Capacity.grown 301 = 512 := by decide +kernel
  -- What the automaton is like besides its size is computed on the plain one.
  have roomy : ∀ call ∈ freedRun, call.Roomy := by
    have small : Automaton.Roomy 1 := by decide +kernel
    simp [freedRun, Rack.Call.Admits, Shelf.Origin.Roomy, small]
  have related := (Shelf.reports_run freedRun roomy).2 1
  rw [present] at related
  have shown : ((Shelf.run PlainAutomaton freedRun).1 1).all fun plain =>
      decide (plain.alphabetSize = 1 ∧ 300 ∉ plain.active) := by decide +kernel
  generalize (Shelf.run PlainAutomaton freedRun).1 1 = plain at related shown
  cases related with
  | some reports =>
    obtain ⟨alphabet, free⟩ := of_decide_eq_true shown
    refine ⟨chronicle.automaton, present, ?_, sized.maxStates.trans room, ?_⟩
    · simp [reports.isActive, free]
    · rw [sized.heapBytes, sized.maxStates, reports.alphabetSize, alphabet, Capacity.relationBytes,
        room]
      rfl

end Chronicle

end NfaInduction
