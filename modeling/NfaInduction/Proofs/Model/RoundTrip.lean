import Mathlib.Data.Finset.Prod
import Mathlib.Data.Set.Monotone
import NfaInduction.Proofs.Automaton.MergeOrder
import NfaInduction.Proofs.Model.Numbering
import NfaInduction.Proofs.Model.Printing

/-! A printed automaton is read back with its states renumbered in order, if it is small enough. -/

namespace NfaInduction

section Renaming

variable {change : Nat → Nat} {states : Set Nat}

/-- The order of transitions stays if states are renamed in order. -/
theorem Automaton.Transition.Before.rename (ordered : StrictMonoOn change states)
    {left right : Automaton.Transition} (leftIn : left.source ∈ states ∧ left.target ∈ states)
    (rightIn : right.source ∈ states ∧ right.target ∈ states) (before : left.Before right) :
    (left.rename change).Before (right.rename change) := by
  -- Where states differ their new names differ the same way, and symbols stay.
  rcases before with source | ⟨same, symbol | ⟨equal, target⟩⟩
  · exact .inl (ordered leftIn.1 rightIn.1 source)
  · exact .inr ⟨congrArg change same, .inl symbol⟩
  · exact .inr ⟨congrArg change same, .inr ⟨equal, ordered leftIn.2 rightIn.2 target⟩⟩

/-- The order of transitions by pairs stays if states are renamed in order. -/
theorem Automaton.Transition.PairBefore.rename (ordered : StrictMonoOn change states)
    {left right : Automaton.Transition} (leftIn : left.source ∈ states ∧ left.target ∈ states)
    (rightIn : right.source ∈ states ∧ right.target ∈ states) (before : left.PairBefore right) :
    (left.rename change).PairBefore (right.rename change) := by
  rcases before with source | ⟨same, target | ⟨equal, symbol⟩⟩
  · exact .inl (ordered leftIn.1 rightIn.1 source)
  · exact .inr ⟨congrArg change same, .inl (ordered leftIn.2 rightIn.2 target)⟩
  · exact .inr ⟨congrArg change same, .inr ⟨congrArg change equal, symbol⟩⟩

/-- Renamed in order, states are sorted as before. -/
theorem sort_image {members : Finset Nat} (ordered : StrictMonoOn change members) :
    (members.image change).sort = members.sort.map change := by
  -- Two ascending lists with the same members are the same.
  have ascending : (members.sort.map change).Pairwise (· < ·) := by
    refine List.pairwise_map.2 ((Finset.sortedLT_sort members).pairwise.imp_of_mem ?_)
    intro left right leftIn rightIn below
    exact ordered ((Finset.mem_sort _).1 leftIn) ((Finset.mem_sort _).1 rightIn) below
  refine (Finset.sortedLT_sort _).pairwise.eq_of_mem_iff ascending fun state => ?_
  simp

end Renaming

namespace Automaton

variable {automaton copy : Automaton} {plain : PlainAutomaton}

/-- A copy of an automaton has the positions of the states in place of the states. -/
structure Renumbered (automaton copy : Automaton) : Prop where
  /-- The alphabet is the same. -/
  alphabetSize : copy.alphabetSize = automaton.alphabetSize
  /-- States are numbered without gaps. -/
  states : copy.states = List.range automaton.stateCount
  /-- Their numbers follow the order of the states. -/
  positions : automaton.states.map automaton.position = copy.states
  /-- Initial states are renumbered. -/
  initialStates : copy.initialStates = automaton.initialStates.map automaton.position
  /-- Final states are renumbered. -/
  finalStates : copy.finalStates = automaton.finalStates.map automaton.position
  /-- Transitions join the renumbered states. -/
  transitions : copy.transitions = automaton.transitions.map (·.rename automaton.position)
  /-- Every word over the alphabet is accepted by both or by none. -/
  isMatch : ∀ word, Sample.Within automaton.alphabetSize word → ∃ verdict,
    automaton.isMatch word = .ok verdict ∧ copy.isMatch word = .ok verdict
  /-- Both are printed as the same text. -/
  modelText : copy.modelText = automaton.modelText

/-- Positions follow the order of the states of the plain automaton. -/
theorem Represents.strictMonoOn_position (represents : automaton.Represents plain) :
    StrictMonoOn automaton.position plain.active :=
  automaton.position_strictMonoOn.mono fun state member => (represents.mem_states state).2 member

/-- A sorted list of the renamed transitions is the renamed list if the order stays. -/
theorem eq_map_rename {before : Transition → Transition → Prop} [Std.Irrefl before]
    [Std.Antisymm before] {change : Nat → Nat} {old new : List Transition}
    (oldSorted : old.Pairwise before) (newSorted : new.Pairwise before)
    (oldMember : ∀ step, step ∈ old ↔ step ∈ plain.transitions)
    (newMember : ∀ step, step ∈ new ↔ step ∈ (plain.rename change).transitions)
    (stays : ∀ left ∈ plain.transitions, ∀ right ∈ plain.transitions, before left right →
      before (left.rename change) (right.rename change)) :
    new = old.map (·.rename change) := by
  -- Two sorted lists with the same members are the same list.
  have sorted : (old.map (·.rename change)).Pairwise before := by
    refine List.pairwise_map.2 (oldSorted.imp_of_mem ?_)
    intro left right leftIn rightIn ordered
    exact stays left ((oldMember left).1 leftIn) right ((oldMember right).1 rightIn) ordered
  refine newSorted.eq_of_mem_iff sorted fun step => ?_
  rw [newMember]
  simp [oldMember]

section Renumbered

variable (represents : automaton.Represents plain)
  (renamed : copy.Represents (plain.rename automaton.position))

include represents renamed

/-- Transitions are renumbered one by one. -/
theorem Represents.transitions_renumbered :
    copy.transitions = automaton.transitions.map (·.rename automaton.position) :=
  eq_map_rename automaton.pairwise_transitions copy.pairwise_transitions
    represents.mem_transitions renamed.mem_transitions fun _ leftIn _ rightIn before =>
      before.rename represents.strictMonoOn_position (plain.ends_active leftIn)
        (plain.ends_active rightIn)

/-- Transitions listed by pairs are renumbered one by one. -/
theorem Represents.transitionsByPair_renumbered :
    copy.transitionsByPair = automaton.transitionsByPair.map (·.rename automaton.position) :=
  eq_map_rename automaton.pairwise_transitionsByPair copy.pairwise_transitionsByPair
    represents.mem_transitionsByPair renamed.mem_transitionsByPair
    fun _ leftIn _ rightIn before =>
      before.rename represents.strictMonoOn_position (plain.ends_active leftIn)
        (plain.ends_active rightIn)

/-- The states of the copy are the positions of the states. -/
theorem Represents.states_renumbered :
    automaton.states.map automaton.position = copy.states := by
  rw [represents.reports.states, renamed.reports.states]
  exact (sort_image represents.strictMonoOn_position).symm

/-- Initial states are renumbered one by one. -/
theorem Represents.initialStates_renumbered :
    copy.initialStates = automaton.initialStates.map automaton.position := by
  rw [represents.reports.initialStates, renamed.reports.initialStates]
  exact sort_image (represents.strictMonoOn_position.mono plain.initial_subset)

/-- Final states are renumbered one by one. -/
theorem Represents.finalStates_renumbered :
    copy.finalStates = automaton.finalStates.map automaton.position := by
  rw [represents.reports.finalStates, renamed.reports.finalStates]
  exact sort_image (represents.strictMonoOn_position.mono plain.finals_subset)

/-- The states of the copy are numbered without gaps. -/
theorem Represents.states_renumbered_eq_range :
    copy.states = List.range automaton.stateCount :=
  (represents.states_renumbered renamed).symm.trans automaton.map_position_states

/-- There are as many states as before. -/
theorem Represents.stateCount_renumbered : copy.stateCount = automaton.stateCount := by
  rw [← length_states, represents.states_renumbered_eq_range renamed, List.length_range]

/-- A state of the copy is its own position. -/
theorem Represents.position_renumbered {state : Nat}
    (member : state ∈ plain.active.image automaton.position) : copy.position state = state := by
  -- The states are a range, where each number stands at its own place.
  have range := represents.states_renumbered_eq_range renamed
  have listed := (renamed.mem_states state).2 member
  rw [range, List.mem_range] at listed
  have found := List.nodup_range.idxOf_getElem state (by rwa [List.length_range])
  rwa [List.getElem_range, ← range] at found

/-- The copy has the same description. -/
theorem Represents.toModel_renumbered : copy.toModel = automaton.toModel := by
  -- The copy is not renumbered again, since each of its states is its own position.
  have own : ∀ {state : Nat}, state ∈ plain.active.image automaton.position →
      copy.position state = state := represents.position_renumbered renamed
  rw [represents.toModel_eq, renamed.toModel_eq, Model.mk.injEq]
  refine ⟨renamed.alphabet.trans represents.alphabet.symm, represents.stateCount_renumbered renamed,
    ?_, ?_, ?_⟩
  · rw [← represents.initialStates_renumbered renamed]
    refine (List.map_congr_left fun state flagged => own ?_).trans (List.map_id' _)
    exact (plain.rename _).initial_subset ((renamed.mem_initialStates state).1 flagged)
  · rw [← represents.finalStates_renumbered renamed]
    refine (List.map_congr_left fun state flagged => own ?_).trans (List.map_id' _)
    exact (plain.rename _).finals_subset ((renamed.mem_finalStates state).1 flagged)
  · rw [← represents.transitionsByPair_renumbered renamed]
    refine (List.map_congr_left fun step joined => ?_).trans (List.map_id' _)
    have ends := (plain.rename _).ends_active ((renamed.mem_transitionsByPair step).1 joined)
    rw [Transition.rename, own ends.1, own ends.2]

/-- A word is accepted by both automata or by none. -/
theorem Represents.isMatch_renumbered {word : List Symbol}
    (within : Sample.Within automaton.alphabetSize word) :
    ∃ verdict, automaton.isMatch word = .ok verdict ∧ copy.isMatch word = .ok verdict := by
  classical
  rw [represents.alphabet] at within
  refine ⟨_, represents.isMatch within, ?_⟩
  rw [renamed.isMatch within]
  refine congrArg Except.ok (decide_eq_decide.2 ⟨fun accepts => ?_, fun accepts => ?_⟩)
  · -- No two states have the same position, so that the states can get their names back.
    have apart : ∀ state ∈ plain.active, ∀ other ∈ plain.active,
        automaton.position state = automaton.position other → id state = id other :=
      fun state member other otherMember same =>
        represents.strictMonoOn_position.injOn member otherMember same
    have back := (PlainAutomaton.rename_le_of_joins apart).2 word accepts
    rwa [PlainAutomaton.rename_id] at back
  · exact accepts.rename _

/-- An automaton with the positions in place of the states is a renumbered copy. -/
theorem Represents.renumbered : automaton.Renumbered copy where
  -- Each report of the copy was settled by a lemma of its own.
  alphabetSize := renamed.alphabet.trans represents.alphabet.symm
  states := represents.states_renumbered_eq_range renamed
  positions := represents.states_renumbered renamed
  initialStates := represents.initialStates_renumbered renamed
  finalStates := represents.finalStates_renumbered renamed
  transitions := represents.transitions_renumbered renamed
  isMatch _ := represents.isMatch_renumbered renamed
  modelText := by rw [modelText, represents.toModel_renumbered renamed, modelText]

omit renamed

/-- The description of an automaton that is small enough is well formed. -/
theorem Represents.wellFormed_toModel
    (small : Model.SmallEnough automaton.alphabetSize automaton.stateCount) :
    automaton.toModel.WellFormed := by
  -- Every number printed is the position of an active state, so it is below their count.
  rw [represents.toModel_eq]
  have below : ∀ state ∈ plain.active, automaton.position state < automaton.stateCount :=
    fun state member => position_lt ((represents.mem_states state).2 member)
  constructor
  case small => exact small
  case initial =>
    intro place listed
    obtain ⟨state, flagged, rfl⟩ := List.mem_map.1 listed
    exact below state (plain.initial_subset ((represents.mem_initialStates state).1 flagged))
  case finals =>
    intro place listed
    obtain ⟨state, flagged, rfl⟩ := List.mem_map.1 listed
    exact below state (plain.finals_subset ((represents.mem_finalStates state).1 flagged))
  case transitions =>
    intro step listed
    obtain ⟨old, joined, rfl⟩ := List.mem_map.1 listed
    have member := (represents.mem_transitionsByPair old).1 joined
    have ends := plain.ends_active member
    exact ⟨below _ ends.1, below _ ends.2, represents.alphabet ▸ plain.symbol_lt old member⟩

/-- A description lists the plain automaton with the positions in place of the states. -/
theorem Represents.plain_toModel (formed : automaton.toModel.WellFormed) :
    formed.plain = plain.rename automaton.position := by
  -- Reading the listing back gives the plain automaton renamed by position, field by field.
  ext1
  case alphabet => exact represents.alphabet
  case active =>
    ext place
    rw [Model.WellFormed.plain_active, PlainAutomaton.rename_active, Finset.mem_range,
      Finset.mem_image, toModel, ← List.mem_range, ← map_position_states]
    simp [represents.mem_states]
  case initial =>
    ext place
    rw [Model.WellFormed.plain_initial, PlainAutomaton.rename_initial, represents.toModel_eq]
    simp [represents.mem_initialStates]
  case finals =>
    ext place
    rw [Model.WellFormed.plain_finals, PlainAutomaton.rename_finals, represents.toModel_eq]
    simp [represents.mem_finalStates]
  case transitions =>
    ext step
    rw [Model.WellFormed.plain_transitions, PlainAutomaton.rename_transitions,
      represents.toModel_eq]
    simp [represents.mem_transitionsByPair]

/-- There are at most as many transitions as pairs of states with a symbol. -/
theorem Represents.length_transitions_toModel : automaton.toModel.transitions.length ≤
    automaton.stateCount * (automaton.stateCount * automaton.alphabetSize) := by
  -- Transitions are listed once, and each is a source, a target and a symbol.
  have distinct : automaton.transitionsByPair.Nodup := automaton.pairwise_transitionsByPair.nodup
  have listed : automaton.transitionsByPair.toFinset = plain.transitions := by
    ext step
    rw [List.mem_toFinset, represents.mem_transitionsByPair]
  rw [represents.toModel_eq, List.length_map, ← List.toFinset_card_of_nodup distinct, listed,
    represents.reports.stateCount, represents.alphabet, ← Finset.card_range plain.alphabetSize,
    ← Finset.card_product, ← Finset.card_product]
  refine Finset.card_le_card_of_injOn (fun step => (step.source, step.target, step.symbol)) ?_ ?_
  · intro step member
    simp [plain.source_active step member, plain.target_active step member,
      plain.symbol_lt step member]
  · intro left _ right _ same
    cases left
    cases right
    simpa using same

/-- The transitions of an automaton that is small enough can be counted. -/
theorem Represents.length_transitions_lt (formed : automaton.toModel.WellFormed) :
    automaton.toModel.transitions.length < UInt64.size := by
  have states : automaton.stateCount ≤ Capacity.maxStates := formed.stateCount_le
  have symbols : automaton.alphabetSize ≤ 1 <<< 17 := formed.small.of_states.alphabetSize_le
  -- Twice twenty bits and seventeen make fifty-seven.
  have most := Nat.mul_le_mul states (Nat.mul_le_mul states symbols)
  exact Nat.lt_of_le_of_lt (represents.length_transitions_toModel.trans most) (by decide)

/-- The text of an automaton that is small enough is read as a renumbered copy. -/
theorem Represents.exists_ofModelBytes
    (small : Model.SmallEnough automaton.alphabetSize automaton.stateCount) :
    ∃ copy, ofModelBytes automaton.modelText.toUTF8 = .ok copy ∧ automaton.Renumbered copy := by
  have formed := represents.wellFormed_toModel small
  -- The printed lines describe the model, and the reader finds it in them.
  have described := formed.describes_toLines (represents.length_transitions_lt formed)
  have valid := Text.lines_ofLines automaton.toModel.lineEnd_notMem_toLines
  refine ⟨automaton.toModel.toAutomaton, ?_, ?_⟩
  · exact (ofModelBytes_eq_ok valid).2 ⟨_, described, rfl⟩
  · have renamed := formed.represents
    rw [represents.plain_toModel formed] at renamed
    exact represents.renumbered renamed

/-- The text of a larger automaton is refused where the alphabet or the states are counted. -/
theorem Represents.ofModelBytes_eq_error
    (large : ¬Model.SmallEnough automaton.alphabetSize automaton.stateCount) :
    ∃ line defect, ofModelBytes automaton.modelText.toUTF8 = .error (.invalidFormat line defect) ∧
      (line = 2 ∨ line = 4) := by
  have limit : automaton.toModel.stateCount ≤ Capacity.maxStates := by
    -- Every state has a slot of its own.
    have slots : plain.active ⊆ Finset.range Capacity.maxStates := fun state member =>
      Finset.mem_range.2 (represents.lt_limit member)
    show automaton.stateCount ≤ Capacity.maxStates
    rw [represents.reports.stateCount, ← Finset.card_range Capacity.maxStates]
    exact Finset.card_le_card slots
  have valid := Text.lines_ofLines automaton.toModel.lineEnd_notMem_toLines
  obtain ⟨line, defect, refused, place⟩ := Model.ofLines_toLines_of_not_small limit large
  refine ⟨line, defect, ?_, place⟩
  rw [ofModelBytes, ofModelLines, modelText, valid, refused]
  rfl

end Renumbered

/--
The text of an automaton is read exactly if the automaton is small enough.

What is read is a renumbered copy, and a larger automaton is refused where its size is stated.
-/
theorem ofModelBytes_modelText (reachable : automaton.Reachable) :
    ((∃ copy, ofModelBytes automaton.modelText.toUTF8 = .ok copy) ↔
      Model.SmallEnough automaton.alphabetSize automaton.stateCount) ∧
    (∀ copy, ofModelBytes automaton.modelText.toUTF8 = .ok copy → automaton.Renumbered copy) ∧
    (¬Model.SmallEnough automaton.alphabetSize automaton.stateCount →
      ∃ line defect, ofModelBytes automaton.modelText.toUTF8 = .error (.invalidFormat line defect) ∧
        (line = 2 ∨ line = 4)) := by
  -- Whether the text is read depends only on the two sizes printed in its header.
  obtain ⟨plain, represents⟩ := reachable.exists_represents
  by_cases small : Model.SmallEnough automaton.alphabetSize automaton.stateCount
  · obtain ⟨copy, read, renumbered⟩ := represents.exists_ofModelBytes small
    refine ⟨⟨fun _ => small, fun _ => ⟨copy, read⟩⟩, fun other again => ?_, absurd small⟩
    obtain rfl : copy = other := Except.ok.inj (read.symm.trans again)
    exact renumbered
  · obtain ⟨line, defect, refused, place⟩ := represents.ofModelBytes_eq_error small
    have unread : ∀ copy, ofModelBytes automaton.modelText.toUTF8 ≠ .ok copy := by
      intro copy read
      rw [refused] at read
      cases read
    refine ⟨⟨fun found => absurd found.choose_spec (unread _), fun room => absurd room small⟩,
      fun copy read => absurd read (unread copy), fun _ => ⟨line, defect, refused, place⟩⟩

/-- A run that leaves states far apart, with slots between them that are not in use. -/
def sparseRun : List Shelf.Call := [
  .create 0 (.alphabet 2), .act 0 (.setInitial 3), .act 0 (.setTransition 3 7 0),
  .act 0 (.setTransition 7 9 1), .act 0 (.setTransition 9 200 0), .act 0 (.setFinal 200),
  .act 0 (.merge 9 7)]

/-- The states left by the merge are numbered without gaps in what is read back. -/
theorem ofModelBytes_modelText_sparse : ∃ automaton copy : Automaton, automaton.Reachable ∧
    automaton.states = [3, 9, 200] ∧ ofModelBytes automaton.modelText.toUTF8 = .ok copy ∧
    copy.states = [0, 1, 2] ∧ copy.transitions = [⟨0, 1, 0⟩, ⟨1, 2, 0⟩, ⟨1, 1, 1⟩] ∧
    copy.modelText = automaton.modelText := by
  -- Slots 3, 9 and 200 are in use, and the listing numbers them 0, 1 and 2.
  have present : ((Shelf.run Automaton sparseRun).1 0).isSome := rfl
  obtain ⟨automaton, held⟩ := Option.isSome_iff_exists.1 present
  have evaluated : ∀ automaton ∈ (Shelf.run Automaton sparseRun).1 0,
      automaton.states = [3, 9, 200] ∧ automaton.alphabetSize = 2 ∧ automaton.stateCount = 3 ∧
      automaton.transitions = [⟨3, 9, 0⟩, ⟨9, 200, 0⟩, ⟨9, 9, 1⟩] := by decide +kernel
  obtain ⟨states, alphabet, count, transitions⟩ := evaluated automaton held
  have reachable : automaton.Reachable := ⟨sparseRun, 0, held⟩
  obtain ⟨readable, renumbered, _⟩ := ofModelBytes_modelText reachable
  have small : Model.SmallEnough automaton.alphabetSize automaton.stateCount := by
    rw [alphabet, count]
    exact Model.fits_iff.1 (by decide +kernel)
  obtain ⟨copy, read⟩ := readable.2 small
  have shown := renumbered copy read
  refine ⟨automaton, copy, reachable, states, read, ?_, ?_, shown.modelText⟩
  · rw [shown.states, count]
    rfl
  · rw [shown.transitions, transitions]
    simp [Transition.rename, position, states]

end Automaton

end NfaInduction
