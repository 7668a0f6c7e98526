import Mathlib.Data.Set.Function
import Mathlib.Logic.Relation
import NfaInduction.Proofs.Automaton.Coherence
import NfaInduction.Proofs.Automaton.Match
import NfaInduction.Proofs.Except

/-! What merges in a row lead to depends on the classes that they join, and not on their order. -/

namespace NfaInduction

namespace PlainAutomaton

/-- The name that a state has after merges in a row, each of a state that absorbs another. -/
def nameAfter : List (Nat × Nat) → Nat → Nat
  | [], state => state
  | (kept, absorbed) :: rest, state => nameAfter rest (standIn kept absorbed state)

/-- Merges put two states into one class if a chain of them joins the two. -/
def SameClass (merges : List (Nat × Nat)) : Nat → Nat → Prop :=
  Relation.EqvGen fun kept absorbed => (kept, absorbed) ∈ merges

/-- A state stays in its class under each name that it gets. -/
theorem sameClass_nameAfter (merges : List (Nat × Nat)) (state : Nat) :
    SameClass merges state (nameAfter merges state) := by
  induction merges generalizing state with
  | nil => exact .refl state
  | cons merge rest ih =>
    obtain ⟨kept, absorbed⟩ := merge
    -- What later merges join is joined by all of them together.
    have later : SameClass ((kept, absorbed) :: rest) (standIn kept absorbed state)
        (nameAfter rest (standIn kept absorbed state)) :=
      (ih _).mono fun _ _ member => List.mem_cons_of_mem _ member
    rw [nameAfter]
    by_cases same : state = absorbed
    · subst same
      rw [standIn_self] at later ⊢
      exact .trans _ _ _ (.symm _ _ (.rel _ _ List.mem_cons_self)) later
    · rwa [standIn_of_ne same] at later ⊢

/-- What merges do to the names of states if each of them is legal when it is made. -/
structure Legal (plain : PlainAutomaton) (merges : List (Nat × Nat)) : Prop where
  /-- States get names of states. -/
  active : ∀ state ∈ plain.active, nameAfter merges state ∈ plain.active
  /-- A name in use in the end has been that of its bearer all the time. -/
  settled : ∀ state ∈ plain.active, nameAfter merges (nameAfter merges state) = nameAfter merges state
  /-- Two states that are merged are states, and have one name in the end. -/
  joined : ∀ merge ∈ merges, merge.1 ∈ plain.active ∧ merge.2 ∈ plain.active ∧
    nameAfter merges merge.1 = nameAfter merges merge.2

variable {plain : PlainAutomaton} {merges : List (Nat × Nat)}

/-- Without merges every state keeps its name. -/
theorem Legal.nil (plain : PlainAutomaton) : plain.Legal [] where
  active _ := id
  settled _ _ := rfl
  joined _ member := nomatch member

/-- A legal merge may come before merges that are legal after it. -/
theorem Legal.cons {kept absorbed : Nat} (keptIn : kept ∈ plain.active)
    (absorbedIn : absorbed ∈ plain.active) (distinct : kept ≠ absorbed)
    (later : (plain.merge kept absorbed).Legal merges) :
    plain.Legal ((kept, absorbed) :: merges) := by
  have left : (plain.merge kept absorbed).active = plain.active.erase absorbed :=
    Automaton.image_standIn keptIn distinct
  -- Every state goes by a name that is left after the first merge.
  have named : ∀ state ∈ plain.active,
      standIn kept absorbed state ∈ (plain.merge kept absorbed).active :=
    fun state member => Finset.mem_image_of_mem _ member
  have other : ∀ state ∈ (plain.merge kept absorbed).active,
      state ∈ plain.active ∧ standIn kept absorbed state = state := by
    intro state member
    rw [left] at member
    exact ⟨Finset.mem_of_mem_erase member, standIn_of_ne (Finset.ne_of_mem_erase member) kept⟩
  constructor
  case active =>
    intro state member
    exact (other _ (later.active _ (named state member))).1
  case settled =>
    intro state member
    rw [nameAfter, nameAfter, (other _ (later.active _ (named state member))).2]
    exact later.settled _ (named state member)
  -- The first pair is joined by the first merge, the others by what follows.
  case joined =>
    intro merge member
    cases member with
    | head =>
      refine ⟨keptIn, absorbedIn, ?_⟩
      rw [nameAfter, nameAfter, standIn_self, standIn_of_ne distinct]
    | tail _ member =>
      obtain ⟨first, second, same⟩ := later.joined merge member
      refine ⟨(other _ first).1, (other _ second).1, ?_⟩
      rwa [nameAfter, nameAfter, (other _ first).2, (other _ second).2]

/-- After legal merges two states have one name exactly if the merges put them into one class. -/
theorem Legal.nameAfter_eq_iff (legal : plain.Legal merges) {state other : Nat} :
    nameAfter merges state = nameAfter merges other ↔ SameClass merges state other := by
  constructor
  · intro same
    have left := sameClass_nameAfter merges state
    rw [same] at left
    exact .trans _ _ _ left (.symm _ _ (sameClass_nameAfter merges other))
  · intro joined
    -- Names are the same along the chain of merges.
    induction joined with
    | rel _ _ member => exact (legal.joined _ member).2.2
    | refl => rfl
    | symm _ _ _ ih => exact ih.symm
    | trans _ _ _ _ _ first second => exact first.trans second

/-- The name of a state in the end is the only one in use in its class. -/
theorem Legal.survives_iff (legal : plain.Legal merges) {state slot : Nat}
    (member : state ∈ plain.active) :
    SameClass merges state slot ∧ slot ∈ (plain.rename (nameAfter merges)).active ↔
      slot = nameAfter merges state := by
  -- Among the states of one class, only the class's name survives.
  constructor
  · intro survives
    obtain ⟨joined, used⟩ := survives
    obtain ⟨other, old, rfl⟩ := Finset.mem_image.1 used
    rw [legal.nameAfter_eq_iff.2 joined, legal.settled other old]
  · intro same
    subst same
    exact ⟨sameClass_nameAfter merges state, Finset.mem_image_of_mem _ member⟩

/-- Renamings that agree on the states lead to the same automaton. -/
theorem rename_congr {first second : Nat → Nat}
    (same : ∀ state ∈ plain.active, first state = second state) :
    plain.rename first = plain.rename second := by
  -- The renaming is applied to active states only: flags and steps carry no other.
  ext1
  case alphabet => rfl
  case active => exact Finset.image_congr same
  case initial => exact Finset.image_congr fun state member => same state (plain.initial_subset member)
  case finals => exact Finset.image_congr fun state member => same state (plain.finals_subset member)
  case transitions =>
    refine Finset.image_congr fun step member => ?_
    have ends := plain.ends_active member
    simp only [Automaton.Transition.rename, same _ ends.1, same _ ends.2]

/-- A renaming that joins at least what another joins can be made after it. -/
theorem exists_rename_rename {finer coarser : Nat → Nat}
    (joins : ∀ state ∈ plain.active, ∀ other ∈ plain.active,
      finer state = finer other → coarser state = coarser other) :
    ∃ change, (plain.rename finer).rename change = plain.rename coarser := by
  classical
  -- A name stands for any of its bearers.
  refine ⟨coarser ∘ Function.invFunOn finer plain.active, ?_⟩
  rw [rename_rename]
  refine rename_congr fun state member => ?_
  have bearer : ∃ other ∈ (plain.active : Set Nat), finer other = finer state := ⟨state, member, rfl⟩
  exact joins _ (Function.invFunOn_mem bearer) state member (Function.invFunOn_eq bearer)

/-- A renaming that joins at least what another joins leaves no more states and loses no word. -/
theorem rename_le_of_joins {finer coarser : Nat → Nat}
    (joins : ∀ state ∈ plain.active, ∀ other ∈ plain.active,
      finer state = finer other → coarser state = coarser other) :
    (plain.rename coarser).active.card ≤ (plain.rename finer).active.card ∧
      ∀ word, (plain.rename finer).Accepts word → (plain.rename coarser).Accepts word := by
  obtain ⟨change, same⟩ := exists_rename_rename joins
  rw [← same]
  exact ⟨Finset.card_image_le, fun word accepts => accepts.rename change⟩

end PlainAutomaton

namespace Automaton

open PlainAutomaton (SameClass nameAfter)

variable {automaton : Automaton} {plain : PlainAutomaton}

/-- The automaton after merges in a row, each of a state that absorbs another, if all are legal. -/
def mergeAll (automaton : Automaton) : List (Nat × Nat) → Except Fault Automaton
  | [] => .ok automaton
  | (kept, absorbed) :: rest => do
    let merged ← (automaton.merge kept absorbed).toExcept
    merged.mergeAll rest

/-- A slot survives the merges of a class if it is the one left in use. -/
def Survives (merged : Automaton) (merges : List (Nat × Nat)) (state slot : Nat) : Prop :=
  SameClass merges state slot ∧ merged.isActive slot

/-- A merge that completes was legal, and gives the absorbed state the name of the kept one. -/
theorem Represents.of_merge_eq_ok (represents : automaton.Represents plain) {kept absorbed : Nat}
    {merged : Automaton} (done : (automaton.merge kept absorbed).toExcept = .ok merged) :
    kept ∈ plain.active ∧ absorbed ∈ plain.active ∧ kept ≠ absorbed ∧
      merged.Represents (plain.merge kept absorbed) := by
  -- Three of the four outcomes of a merge are refusals, which the hypothesis excludes.
  rcases represents.merge kept absorbed with ⟨_, refused⟩ | ⟨_, _, refused⟩ | ⟨_, _, refused⟩ |
    ⟨keptIn, absorbedIn, distinct, other, same, result⟩
  · rw [refused] at done
    cases done
  · rw [refused] at done
    cases done
  · rw [refused] at done
    cases done
  · rw [same] at done
    cases done
    exact ⟨keptIn, absorbedIn, distinct, result⟩

/-- Merges that complete were legal, and rename the states once for all. -/
theorem Represents.mergeAll (represents : automaton.Represents plain) {merges : List (Nat × Nat)}
    {merged : Automaton} (done : automaton.mergeAll merges = .ok merged) :
    plain.Legal merges ∧ merged.Represents (plain.rename (nameAfter merges)) := by
  -- Each merge of the list is legal for what the merges before it left.
  induction merges generalizing automaton plain with
  | nil =>
    cases done
    refine ⟨.nil plain, ?_⟩
    have unchanged : nameAfter [] = id := rfl
    rwa [unchanged, PlainAutomaton.rename_id]
  | cons merge rest ih =>
    obtain ⟨kept, absorbed⟩ := merge
    rw [Automaton.mergeAll] at done
    cases first : (automaton.merge kept absorbed).toExcept with
    | error fault =>
      rw [first] at done
      cases done
    | ok next =>
      rw [first] at done
      obtain ⟨keptIn, absorbedIn, distinct, after⟩ := represents.of_merge_eq_ok first
      obtain ⟨legal, result⟩ := ih after done
      refine ⟨legal.cons keptIn absorbedIn distinct, ?_⟩
      rwa [PlainAutomaton.merge, PlainAutomaton.rename_rename] at result

/-- A slot survives if it bears the last name of the states of its class. -/
theorem survives_iff {merged : Automaton} {merges : List (Nat × Nat)} (legal : plain.Legal merges)
    (result : merged.Represents (plain.rename (nameAfter merges))) {state slot : Nat}
    (member : state ∈ plain.active) :
    merged.Survives merges state slot ↔ slot = nameAfter merges state := by
  rw [Survives, ← legal.survives_iff member, isActive, result.active]

/-- In the class of each state exactly one slot survives legal merges. -/
theorem existsUnique_survives {merged : Automaton} {merges : List (Nat × Nat)}
    (legal : plain.Legal merges) (result : merged.Represents (plain.rename (nameAfter merges)))
    {state : Nat} (member : state ∈ plain.active) : ∃! slot, merged.Survives merges state slot :=
  ⟨nameAfter merges state, (survives_iff legal result member).2 rfl,
    fun _ survives => (survives_iff legal result member).1 survives⟩

/--
Merges that join the same classes leave as many states and accept the same words.

Where the same slots survive in these classes, they leave the same automaton.
-/
theorem mergeAll_order (reachable : automaton.Reachable) {left right : List (Nat × Nat)}
    {leftMerged rightMerged : Automaton} (leftDone : automaton.mergeAll left = .ok leftMerged)
    (rightDone : automaton.mergeAll right = .ok rightMerged)
    (same : ∀ state other, automaton.isActive state → automaton.isActive other →
      (SameClass left state other ↔ SameClass right state other)) :
    leftMerged.stateCount = rightMerged.stateCount ∧
    (∀ word, Sample.Within automaton.alphabetSize word → ∃ verdict,
      leftMerged.isMatch word = .ok verdict ∧ rightMerged.isMatch word = .ok verdict) ∧
    (∀ state, automaton.isActive state →
      (∃! slot, leftMerged.Survives left state slot) ∧
        ∃! slot, rightMerged.Survives right state slot) ∧
    ((∀ state slot, automaton.isActive state →
        (leftMerged.Survives left state slot ↔ rightMerged.Survives right state slot)) →
      leftMerged.states = rightMerged.states ∧
        leftMerged.initialStates = rightMerged.initialStates ∧
        leftMerged.finalStates = rightMerged.finalStates ∧
        leftMerged.transitions = rightMerged.transitions) := by
  classical
  -- Each sequence of merges is one renaming by the last names.
  obtain ⟨plain, represents⟩ := reachable.exists_represents
  obtain ⟨leftLegal, leftResult⟩ := represents.mergeAll leftDone
  obtain ⟨rightLegal, rightResult⟩ := represents.mergeAll rightDone
  have active : ∀ state, automaton.isActive state ↔ state ∈ plain.active := represents.active
  -- The last names of two states are the same after both or after none.
  have joins : ∀ state ∈ plain.active, ∀ other ∈ plain.active,
      nameAfter left state = nameAfter left other ↔ nameAfter right state = nameAfter right other := by
    intro state member other otherMember
    rw [leftLegal.nameAfter_eq_iff, rightLegal.nameAfter_eq_iff]
    exact same state other ((active state).2 member) ((active other).2 otherMember)
  -- Each renaming joins what the other one joins, so neither gains on the other.
  obtain ⟨fewer, kept⟩ := PlainAutomaton.rename_le_of_joins fun state member other otherMember =>
    (joins state member other otherMember).1
  obtain ⟨more, gained⟩ := PlainAutomaton.rename_le_of_joins fun state member other otherMember =>
    (joins state member other otherMember).2
  refine ⟨?_, fun word within => ?_, fun state used => ?_, fun survivors => ?_⟩
  · rw [leftResult.reports.stateCount, rightResult.reports.stateCount]
    exact Nat.le_antisymm more fewer
  · rw [represents.alphabet] at within
    refine ⟨_, leftResult.isMatch within, ?_⟩
    rw [rightResult.isMatch within]
    exact congrArg Except.ok (decide_eq_decide.2 ⟨gained word, kept word⟩)
  · exact ⟨existsUnique_survives leftLegal leftResult ((active state).1 used),
      existsUnique_survives rightLegal rightResult ((active state).1 used)⟩
  · -- Where the same slots survive, the last names are the same, and so is the renamed automaton.
    have names : ∀ state ∈ plain.active, nameAfter left state = nameAfter right state := by
      intro state member
      have survives := (survivors state _ ((active state).2 member)).1
        ((survives_iff leftLegal leftResult member).2 rfl)
      exact (survives_iff rightLegal rightResult member).1 survives
    rw [PlainAutomaton.rename_congr names] at leftResult
    exact ⟨leftResult.reports.states.trans rightResult.reports.states.symm,
      leftResult.reports.initialStates.trans rightResult.reports.initialStates.symm,
      leftResult.reports.finalStates.trans rightResult.reports.finalStates.symm,
      leftResult.transitions_eq rightResult⟩

/-- Four states in a row with a loop at the end. -/
def rowRun : List Shelf.Call := [
  .create 0 (.alphabet 2), .act 0 (.setInitial 0), .act 0 (.setTransition 0 1 0),
  .act 0 (.setTransition 1 2 1), .act 0 (.setTransition 2 3 0), .act 0 (.setTransition 3 3 1),
  .act 0 (.setFinal 3)]

/-- The first three of these states are merged in two orders, which lead to the same automaton. -/
theorem mergeAll_order_row : ∃ automaton left right : Automaton, automaton.Reachable ∧
    automaton.mergeAll [(0, 1), (0, 2)] = .ok left ∧
    automaton.mergeAll [(1, 2), (0, 1)] = .ok right ∧
    (∀ state other, SameClass [(0, 1), (0, 2)] state other ↔
      SameClass [(1, 2), (0, 1)] state other) ∧
    left.stateCount = right.stateCount ∧ left.states = right.states ∧
    left.transitions = right.transitions := by
  have present : ((Shelf.run Automaton rowRun).1 0).isSome := rfl
  obtain ⟨automaton, held⟩ := Option.isSome_iff_exists.1 present
  have completes : ∀ automaton ∈ (Shelf.run Automaton rowRun).1 0,
      (automaton.mergeAll [(0, 1), (0, 2)]).isOk ∧ (automaton.mergeAll [(1, 2), (0, 1)]).isOk := by
    decide +kernel
  obtain ⟨leftOk, rightOk⟩ := completes automaton held
  obtain ⟨left, leftDone⟩ := exists_of_isOk leftOk
  obtain ⟨right, rightDone⟩ := exists_of_isOk rightOk
  have reachable : automaton.Reachable := ⟨rowRun, 0, held⟩
  obtain ⟨plain, represents⟩ := reachable.exists_represents
  obtain ⟨leftLegal, leftResult⟩ := represents.mergeAll leftDone
  obtain ⟨rightLegal, rightResult⟩ := represents.mergeAll rightDone
  -- Both orders give the three states the name of the first.
  have names : nameAfter [(0, 1), (0, 2)] = nameAfter [(1, 2), (0, 1)] := by
    funext state
    simp only [nameAfter, PlainAutomaton.standIn]
    split_ifs <;> omega
  have same : ∀ state other, SameClass [(0, 1), (0, 2)] state other ↔
      SameClass [(1, 2), (0, 1)] state other := by
    intro state other
    rw [← leftLegal.nameAfter_eq_iff, ← rightLegal.nameAfter_eq_iff, names]
  obtain ⟨counts, _, _, identical⟩ := mergeAll_order reachable leftDone rightDone
    fun state other _ _ => same state other
  obtain ⟨states, _, _, transitions⟩ := identical fun state slot used => by
    have member := (represents.active state).1 used
    rw [survives_iff leftLegal leftResult member, survives_iff rightLegal rightResult member, names]
  exact ⟨automaton, left, right, reachable, leftDone, rightDone, same, counts, states, transitions⟩

end Automaton

end NfaInduction
