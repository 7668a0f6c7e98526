import NfaInduction.Proofs.Training.SettleState
import NfaInduction.Proofs.Training.Search

/-! Once all new states are examined, no two states of the automaton can be merged safely. -/

namespace NfaInduction

namespace Training

variable {plain : PlainAutomaton} {negatives remaining : List Sample}

/-- Some states are examined and others wait, and no negative sample is accepted meanwhile. -/
structure Examined (negatives : List Sample) (plain : PlainAutomaton) (states pending : List Nat) :
    Prop where
  /-- No state is listed twice. -/
  nodup : (states ++ pending).Nodup
  /-- Exactly the states of the automaton are listed. -/
  active : ∀ state, state ∈ plain.active ↔ state ∈ states ++ pending
  /-- No two of the examined states can be merged safely. -/
  irreducible : ∀ left ∈ states, ∀ right ∈ states, left ≠ right → plain.Unsafe negatives left right
  /-- Negative samples are rejected. -/
  rejects : ∀ negative ∈ negatives, ¬plain.Accepts negative

/-- It does not matter in which order states wait. -/
theorem Examined.perm {states pending reordered : List Nat}
    (examined : Examined negatives plain states pending) (same : reordered.Perm pending) :
    Examined negatives plain states reordered where
  nodup := (same.append_left states).nodup_iff.2 examined.nodup
  active state := (examined.active state).trans (same.append_left states).mem_iff.symm
  irreducible := examined.irreducible
  rejects := examined.rejects

/-- A state that none of the examined ones absorbs safely becomes one of them. -/
theorem Examined.keep {states waiting : List Nat} {state : Nat}
    (examined : Examined negatives plain states (state :: waiting))
    (tried : ∀ candidate ∈ states, plain.Unsafe negatives candidate state) :
    Examined negatives plain (states ++ [state]) waiting where
  nodup := by rw [← List.append_cons]; exact examined.nodup
  active other := by rw [← List.append_cons]; exact examined.active other
  irreducible left leftIn right rightIn distinct := by
    -- The new state was tried with each of the others, in one direction.
    rcases List.mem_append.1 leftIn with leftOld | leftNew
    · rcases List.mem_append.1 rightIn with rightOld | rightNew
      · exact examined.irreducible left leftOld right rightOld distinct
      · rw [List.mem_singleton.1 rightNew]
        exact tried left leftOld
    · rw [List.mem_singleton.1 leftNew]
      rcases List.mem_append.1 rightIn with rightOld | rightNew
      · exact (tried right rightOld).symm
      · exact absurd ((List.mem_singleton.1 leftNew).trans (List.mem_singleton.1 rightNew).symm) distinct
  rejects := examined.rejects

/-- A state that an examined one absorbs safely is gone, and the others are as they were. -/
theorem Examined.absorb {states waiting : List Nat} {kept state : Nat}
    (examined : Examined negatives plain states (state :: waiting)) (keptIn : kept ∈ states)
    (safe : ¬plain.Unsafe negatives kept state) :
    Examined negatives (plain.merge kept state) states waiting := by
  -- The absorbed state is listed once, and so it is gone with its entry.
  have listed := examined.nodup
  rw [List.nodup_append'] at listed
  obtain ⟨statesNodup, waitingNodup, apart⟩ := listed
  have notWaiting : state ∉ waiting := (List.nodup_cons.1 waitingNodup).1
  have notExamined : ∀ other ∈ states, other ≠ state := by
    rintro other member rfl
    exact apart member List.mem_cons_self
  have keptActive : kept ∈ plain.active :=
    (examined.active kept).2 (List.mem_append_left _ keptIn)
  constructor
  case nodup => exact examined.nodup.sublist ((List.sublist_cons_self state waiting).append_left states)
  case active =>
    intro other
    rw [PlainAutomaton.merge, PlainAutomaton.rename_active,
      Automaton.image_standIn keptActive (notExamined kept keptIn), Finset.mem_erase,
      examined.active]
    have := notExamined other
    grind
  -- Merging the state away keeps a merge of two others unsafe.
  case irreducible =>
    intro left leftIn right rightIn distinct
    exact (examined.irreducible left leftIn right rightIn distinct).merge kept
      (notExamined left leftIn) (notExamined right rightIn)
  case rejects => exact fun negative member accepts => safe ⟨negative, member, accepts⟩

/-- Moving the last item to the front keeps the items. -/
theorem lastFirst_perm (items : List Nat) : (lastFirst items).Perm items := by
  rw [lastFirst]
  split
  · rename_i none
    -- Only an empty list has no last item.
    rw [List.getLast?_eq_none_iff.1 none]
  · rename_i last found
    obtain ⟨front, rfl⟩ := List.getLast?_eq_some_iff.1 found
    rw [List.dropLast_concat]
    exact (List.perm_append_singleton last front).symm

/-- The states that wait after a merge are those that waited behind the absorbed one. -/
theorem waitingAfterMerge_perm (deterministic : Bool) (waiting : List Nat) :
    (waitingAfterMerge deterministic waiting).Perm waiting := by
  cases deterministic
  · exact lastFirst_perm waiting
  · exact .refl waiting

/-- The plain automaton once a state has been absorbed by the partner found in its examination. -/
def mergedBy (plain : PlainAutomaton) (examination : Examination) : PlainAutomaton :=
  match examination.absorbedBy with
  | none => plain
  | some partner => plain.merge partner.state examination.state

/-- What an examination leads to is a renaming of the states, if anything changes. -/
theorem exists_mergedBy (plain : PlainAutomaton) (examination : Examination) :
    ∃ change, mergedBy plain examination = plain.rename change := by
  rw [mergedBy]
  cases examination.absorbedBy with
  | none => exact ⟨id, plain.rename_id.symm⟩
  | some partner => exact ⟨_, rfl⟩

/-- What examinations in a row lead to is a renaming of the states. -/
theorem exists_foldl_mergedBy (examinations : List Examination) (plain : PlainAutomaton) :
    ∃ change, examinations.foldl mergedBy plain = plain.rename change := by
  induction examinations generalizing plain with
  | nil => exact ⟨id, plain.rename_id.symm⟩
  | cons examination later ih =>
    -- The states go by the names that later merges give to their first new names.
    obtain ⟨first, renamed⟩ := exists_mergedBy plain examination
    obtain ⟨second, again⟩ := ih (plain.rename first)
    exact ⟨second ∘ first, by rw [List.foldl_cons, renamed, again, PlainAutomaton.rename_rename]⟩

/-- Examinations leave the alphabet as it is. -/
@[simp] theorem alphabetSize_mergedBy (plain : PlainAutomaton) (examination : Examination) :
    (mergedBy plain examination).alphabetSize = plain.alphabetSize := by
  obtain ⟨change, renamed⟩ := exists_mergedBy plain examination
  rw [renamed, PlainAutomaton.rename_alphabetSize]

namespace SettleState

/-- A settlement stands for a plain automaton whose states it lists, examined or waiting. -/
structure Sound (settling : SettleState) (negatives : List Sample) (plain : PlainAutomaton) : Prop where
  /-- Its automaton represents the plain one. -/
  represents : settling.hypothesis.Represents plain
  /-- Its states are examined or wait. -/
  examined : Examined negatives plain settling.states.toList settling.pending

variable {settling : SettleState} {waiting : List Nat} {state : Nat}

/-- The state to be examined is one of the automaton, and the examined ones are others. -/
theorem Sound.candidates (sound : settling.Sound negatives plain)
    (pending : settling.pending = state :: waiting) : state ∈ plain.active ∧
      ∀ candidate ∈ settling.states.toList, candidate ∈ plain.active ∧ candidate ≠ state := by
  have examined := sound.examined
  rw [pending] at examined
  -- No state is listed both among the examined and among the waiting ones.
  have apart := (List.nodup_append'.1 examined.nodup).2.2
  refine ⟨(examined.active state).2 (List.mem_append_right _ List.mem_cons_self), ?_⟩
  intro candidate member
  refine ⟨(examined.active candidate).2 (List.mem_append_left _ member), ?_⟩
  rintro rfl
  exact apart member List.mem_cons_self

/-- A settlement stays sound once a search has shown what becomes of its next state. -/
theorem Sound.resolve (sound : settling.Sound negatives plain) (settings : Settings)
    (pending : settling.pending = state :: waiting) {choice : Option Choice}
    (resolves : Resolves plain negatives state settling.states.toList choice)
    (tried : List Partner) :
    (settling.resolve settings state waiting choice).Sound negatives
      (mergedBy plain ⟨settling.states.size, state, tried, choice.map (·.partner)⟩) := by
  have examined := sound.examined
  rw [pending] at examined
  cases choice with
  | none =>
    -- The state stays, and so does the automaton.
    refine ⟨sound.represents, ?_⟩
    rw [SettleState.resolve, Array.toList_push]
    exact examined.keep resolves
  | some choice =>
    -- The state is absorbed, and those behind it may change places.
    refine ⟨resolves.represents, ?_⟩
    exact (examined.absorb resolves.member resolves.safe).perm
      (waitingAfterMerge_perm settings.deterministic waiting)

section Turn

variable (sound : settling.Sound negatives plain)
  (negativesWithin : ∀ negative ∈ negatives, negative.Within plain.alphabetSize)
  (remainingWithin : ∀ sample ∈ remaining, sample.Within plain.alphabetSize)
  (settings : Settings)
include sound negativesWithin remainingWithin

/-- A turn examines the next state without a fault, and the settlement stays sound. -/
theorem Sound.turn (pending : settling.pending = state :: waiting) :
    ∃ examination next, settling.turn settings negatives remaining = .ok (some (examination, next)) ∧
      next.Sound negatives (mergedBy plain examination) ∧
      next.pending.length = waiting.length := by
  -- The search resolves the state in hand, and what it found is carried out.
  obtain ⟨stateIn, candidates⟩ := sound.candidates pending
  obtain ⟨⟨tried, choice⟩, searched, resolves⟩ := search_resolves sound.represents stateIn
    negativesWithin remainingWithin settings.skipBestSearch candidates
  refine ⟨⟨settling.states.size, state, tried, choice.map (·.partner)⟩,
    settling.resolve settings state waiting choice, ?_, sound.resolve settings pending resolves tried,
    settling.length_pending_resolve settings state waiting choice⟩
  simp only [SettleState.turn, pending]
  exact bind_of_ok searched

/-- A settlement is sound after each turn. -/
theorem Sound.of_turn {examination : Examination} {next : SettleState}
    (done : settling.turn settings negatives remaining = .ok (some (examination, next))) :
    next.Sound negatives (mergedBy plain examination) := by
  obtain ⟨state, waiting, _, pending, _⟩ := exists_of_turn done
  obtain ⟨_, _, again, result, _⟩ := sound.turn negativesWithin remainingWithin settings pending
  cases done.symm.trans again
  exact result

/-- Turns in a row keep a settlement sound. -/
theorem Sound.reaches {later : SettleState}
    (reaches : settling.Reaches settings negatives remaining later) :
    ∃ change, later.Sound negatives (plain.rename change) := by
  -- Each turn renames the states by what it merges.
  induction reaches with
  | refl => exact ⟨id, by rwa [PlainAutomaton.rename_id]⟩
  | tail _ turns ih =>
    obtain ⟨change, before⟩ := ih
    obtain ⟨examination, done⟩ := turns
    obtain ⟨last, renamed⟩ := exists_mergedBy (plain.rename change) examination
    refine ⟨last ∘ change, ?_⟩
    rw [← PlainAutomaton.rename_rename, ← renamed]
    exact before.of_turn negativesWithin remainingWithin settings done

/-- A sound settlement succeeds and leaves no two states to be merged. -/
theorem Sound.settle : ∃ settlement,
    settle settings negatives remaining settling.hypothesis settling.states settling.pending =
      .ok settlement ∧
    (⟨settlement.hypothesis, settlement.states, []⟩ : SettleState).Sound negatives
      (settlement.examinations.foldl mergedBy plain) := by
  -- Each turn takes one state off the waiting ones, and the others may change places.
  induction size : settling.pending.length generalizing settling plain with
  | zero =>
    have empty := List.eq_nil_of_length_eq_zero size
    have examined := sound.examined
    rw [empty] at examined
    refine ⟨⟨settling.hypothesis, settling.states, []⟩, ?_, sound.represents, examined⟩
    rw [empty, Training.settle]
  | succ count ih =>
    obtain ⟨state, waiting, pending⟩ := List.exists_cons_of_length_eq_add_one size
    obtain ⟨examination, next, done, after, fewer⟩ :=
      sound.turn negativesWithin remainingWithin settings pending
    have counted : next.pending.length = count := by
      rw [pending, List.length_cons] at size
      omega
    obtain ⟨settlement, settled, result⟩ := ih after (by simpa using negativesWithin)
      (by simpa using remainingWithin) counted
    refine ⟨{ settlement with examinations := examination :: settlement.examinations }, ?_, result⟩
    rw [SettleState.settle_eq, bind_of_ok done]
    exact bind_of_ok settled

end Turn

end SettleState

end Training

end NfaInduction
