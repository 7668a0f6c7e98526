import NfaInduction.Proofs.Automaton.Match
import NfaInduction.Proofs.Training.SearchState

/-! A pick is the first of the best candidates that absorb a state safely, however they are scored. -/

namespace NfaInduction

namespace PlainAutomaton

variable {plain : PlainAutomaton} {negatives : List Sample}

/-- Letting one state absorb another would make the automaton accept a negative sample. -/
def Unsafe (plain : PlainAutomaton) (negatives : List Sample) (left right : Nat) : Prop :=
  ∃ negative ∈ negatives, (plain.merge left right).Accepts negative

/-- It makes no difference which of two states absorbs the other. -/
theorem Unsafe.symm {left right : Nat} (danger : plain.Unsafe negatives left right) :
    plain.Unsafe negatives right left := by
  -- The merged automata differ in the name of one state.
  obtain ⟨negative, member, accepts⟩ := danger
  refine ⟨negative, member, ?_⟩
  rw [← merge_rename_standIn]
  exact accepts.rename _

/-- An unsafe merge stays unsafe if states, flags and transitions are added. -/
theorem Unsafe.mono {whole : PlainAutomaton} {left right : Nat}
    (danger : plain.Unsafe negatives left right) (contained : plain.PartOf whole) :
    whole.Unsafe negatives left right := by
  obtain ⟨negative, member, accepts⟩ := danger
  exact ⟨negative, member, accepts.mono (contained.rename _)⟩

/-- An unsafe merge stays unsafe after another merge that leaves both states there. -/
theorem Unsafe.merge {left right absorbed : Nat} (danger : plain.Unsafe negatives left right)
    (kept : Nat) (leftOther : left ≠ absorbed) (rightOther : right ≠ absorbed) :
    (plain.merge kept absorbed).Unsafe negatives left right := by
  -- What the one merge leads to can be renamed to what both lead to.
  obtain ⟨negative, member, accepts⟩ := danger
  refine ⟨negative, member, ?_⟩
  rw [← merge_rename_merge plain kept leftOther rightOther]
  exact accepts.rename _

/-- What a search counts for a candidate: nothing, or the remaining samples accepted after the merge. -/
noncomputable def score (plain : PlainAutomaton) (remaining : List Sample) (state : Nat) :
    Bool → Nat → Option Nat
  | true, _ => none
  | false, candidate => some ((plain.merge candidate state).acceptedCount remaining)

end PlainAutomaton

namespace Training

variable {automaton : Automaton} {plain : PlainAutomaton} {negatives : List Sample} {state : Nat}

/-- What a candidate is worth to a search that may not have counted a score for it. -/
def worth (score : Nat → Option Nat) (candidate : Nat) : Nat := (score candidate).getD 0

/-- A choice is safe, worth more than the safe candidates before it and no less than those behind. -/
structure Picked (automaton : Automaton) (plain : PlainAutomaton) (negatives : List Sample)
    (state : Nat) (score : Nat → Option Nat) (before after : List Nat) (choice : Choice) : Prop where
  /-- It is named by its place. -/
  position : choice.partner.position = before.length
  /-- Its score is the one counted for it. -/
  scored : choice.partner.score = score choice.partner.state
  /-- It comes with the automaton in which it has absorbed the state. -/
  merged : automaton.merge choice.partner.state state = .done choice.merged
  /-- No negative sample is accepted then. -/
  safe : ¬plain.Unsafe negatives choice.partner.state state
  /-- Safe candidates before it are worth less. -/
  before_lt : ∀ candidate ∈ before, ¬plain.Unsafe negatives candidate state →
    worth score candidate < worth score choice.partner.state
  /-- Safe candidates behind it are worth no more. -/
  after_le : ∀ candidate ∈ after, ¬plain.Unsafe negatives candidate state →
    worth score candidate ≤ worth score choice.partner.state

/-- The first of the best candidates is picked, or none if there is no safe one. -/
def Picks (automaton : Automaton) (plain : PlainAutomaton) (negatives : List Sample) (state : Nat)
    (score : Nat → Option Nat) (earlier : List Nat) : Option Choice → Prop
  | none => ∀ candidate ∈ earlier, plain.Unsafe negatives candidate state
  | some choice => ∃ before after, earlier = before ++ choice.partner.state :: after ∧
    Picked automaton plain negatives state score before after choice

variable {score other : Nat → Option Nat}
  {earlier passed more before middle after front behind : List Nat}
  {candidate : Nat} {choice another : Choice} {best : Option Choice} {merged : Automaton}

/-- A pick stands if no better candidates follow. -/
theorem Picks.append (picks : Picks automaton plain negatives state score passed (some choice))
    (noBetter : ∀ candidate ∈ more, ¬plain.Unsafe negatives candidate state →
      worth score candidate ≤ worth score choice.partner.state) :
    Picks automaton plain negatives state score (passed ++ more) (some choice) := by
  -- Candidates that are no better leave the choice as it is.
  obtain ⟨before, after, rfl, picked⟩ := picks
  refine ⟨before, after ++ more, by rw [List.append_assoc, List.cons_append], { picked with
    after_le := fun candidate member safe => ?_ }⟩
  rcases List.mem_append.1 member with old | new
  · exact picked.after_le candidate old safe
  · exact noBetter candidate new safe

/-- An unsafe candidate changes nothing about what is picked. -/
theorem Picks.concat_unsafe (picks : Picks automaton plain negatives state score passed best)
    (danger : plain.Unsafe negatives candidate state) :
    Picks automaton plain negatives state score (passed ++ [candidate]) best := by
  -- A candidate whose merge is unsafe is never chosen.
  have unsafe_of_mem : ∀ other ∈ [candidate], plain.Unsafe negatives other state := by
    intro other member
    rwa [List.mem_singleton.1 member]
  cases best with
  | none => exact List.forall_mem_append.2 ⟨picks, unsafe_of_mem⟩
  | some choice =>
    exact Picks.append picks fun other member safe => absurd (unsafe_of_mem other member) safe

/-- A safe candidate is picked if it is worth more than all safe ones before it. -/
theorem picks_concat (done : automaton.merge candidate state = .done merged)
    (safe : ¬plain.Unsafe negatives candidate state)
    (better : ∀ other ∈ passed, ¬plain.Unsafe negatives other state →
      worth score other < worth score candidate) :
    Picks automaton plain negatives state score (passed ++ [candidate])
      (some ⟨⟨passed.length, candidate, score candidate⟩, merged⟩) :=
  ⟨passed, [], rfl, rfl, rfl, done, safe, better, fun _ member => absurd member List.not_mem_nil⟩

/-- No safe candidate is worth more than the one that is picked. -/
theorem Picks.worth_le (picks : Picks automaton plain negatives state score earlier (some choice))
    (member : candidate ∈ earlier) (safe : ¬plain.Unsafe negatives candidate state) :
    worth score candidate ≤ worth score choice.partner.state := by
  -- Before the choice worth is strictly less, after it at most equal.
  obtain ⟨before, after, rfl, picked⟩ := picks
  rcases List.mem_append.1 member with earlier | found
  · exact Nat.le_of_lt (picked.before_lt candidate earlier safe)
  · rcases List.mem_cons.1 found with rfl | later
    · exact Nat.le_refl _
    · exact picked.after_le candidate later safe

/-- The pick stands where its position says. -/
theorem Picks.placed (picks : Picks automaton plain negatives state score earlier (some choice)) :
    earlier[choice.partner.position]? = some choice.partner.state := by
  obtain ⟨before, after, rfl, picked⟩ := picks
  simp [picked.position]

/-- No safe candidate that is worth as much stands before the pick. -/
theorem Picks.position_le
    (picks : Picks automaton plain negatives state score earlier (some choice)) {place : Nat}
    (there : earlier[place]? = some candidate) (safe : ¬plain.Unsafe negatives candidate state)
    (noLess : worth score choice.partner.state ≤ worth score candidate) :
    choice.partner.position ≤ place := by
  -- An earlier candidate of the same worth would have been chosen in its place.
  obtain ⟨before, after, rfl, picked⟩ := picks
  rw [picked.position]
  refine Nat.le_of_not_lt fun early => ?_
  rw [List.getElem?_append_left early] at there
  have less := picked.before_lt candidate (List.mem_of_getElem? there) safe
  omega

/-- A safe candidate is picked if its count improves on the one before, which else stays. -/
theorem Picks.concat_safe {count : Nat → Nat}
    (picks : Picks automaton plain negatives state (fun candidate => some (count candidate)) passed best)
    (done : automaton.merge candidate state = .done merged)
    (safe : ¬plain.Unsafe negatives candidate state) :
    Picks automaton plain negatives state (fun candidate => some (count candidate))
      (passed ++ [candidate]) (if improves (count candidate) (best.map (·.partner))
        then some ⟨⟨passed.length, candidate, some (count candidate)⟩, merged⟩ else best) := by
  cases best with
  | none =>
    -- Any count improves on none.
    exact picks_concat done safe fun other member safe => absurd (picks other member) safe
  | some choice =>
    have improved : improves (count candidate) ((some choice).map (·.partner)) ↔
        count choice.partner.state < count candidate := by
      obtain ⟨_, _, _, picked⟩ := picks
      simp [improves, picked.scored]
    by_cases better : count choice.partner.state < count candidate
    · rw [if_pos (improved.2 better)]
      exact picks_concat done safe fun other member safe =>
        Nat.lt_of_le_of_lt (picks.worth_le member safe) better
    · rw [if_neg (mt improved.1 better)]
      refine picks.append fun other member _ => ?_
      rw [List.mem_singleton.1 member]
      exact Nat.le_of_not_lt better

/-- No pick stands before another if both scores order the candidates alike. -/
theorem Picked.not_before (picked : Picked automaton plain negatives state score before
      (middle ++ another.partner.state :: after) choice)
    (alike : ∀ first second,
      worth other first < worth other second → worth score first < worth score second)
    (again : Picked automaton plain negatives state other
      (before ++ choice.partner.state :: middle) after another) : False := by
  -- The later one would have to be worth more than the earlier one, and yet no more.
  have more := again.before_lt choice.partner.state (by simp) picked.safe
  have noMore := picked.after_le another.partner.state (by simp) again.safe
  have := alike _ _ more
  omega

/-- The choice without its score. -/
def Choice.unscored (choice : Choice) : Choice :=
  ⟨⟨choice.partner.position, choice.partner.state, none⟩, choice.merged⟩

/-- Picks of one candidate differ in their scores only. -/
theorem Picked.unscored_eq (picked : Picked automaton plain negatives state score before after choice)
    (again : Picked automaton plain negatives state other front behind another)
    (place : before.length = front.length) (same : choice.partner.state = another.partner.state) :
    choice.unscored = another.unscored := by
  have position := picked.position.trans (place.trans again.position.symm)
  -- One and the same merge has been made.
  have done := picked.merged
  rw [same, again.merged] at done
  have merged : another.merged = choice.merged := congrArg Edit.automaton done
  rw [Choice.unscored, Choice.unscored, position, same, merged]

/-- Scores that order the candidates alike lead to the same pick. -/
theorem Picks.unscored_eq {first second : Option Choice} (alike : ∀ left right,
      worth score left < worth score right ↔ worth other left < worth other right)
    (picks : Picks automaton plain negatives state score earlier first)
    (again : Picks automaton plain negatives state other earlier second) :
    first.map (·.unscored) = second.map (·.unscored) := by
  -- Whether there is a choice at all does not depend on the scores.
  cases first with
  | none =>
    cases second with
    | none => rfl
    | some another =>
      obtain ⟨_, _, rfl, repeated⟩ := again
      exact absurd (picks another.partner.state (by simp)) repeated.safe
  | some choice =>
    obtain ⟨before, after, rfl, picked⟩ := picks
    cases second with
    | none => exact absurd (again choice.partner.state (by simp)) picked.safe
    | some another =>
      obtain ⟨front, behind, split, repeated⟩ := again
      -- One of the two choices stands first unless both stand in one place.
      rcases List.append_eq_append_iff.1 split with ⟨middle, rfl, tail⟩ | ⟨middle, rfl, tail⟩
      · cases middle with
        | nil =>
          obtain ⟨same, _⟩ := List.cons.inj tail
          exact congrArg some (picked.unscored_eq repeated (by simp) same)
        | cons _ middle =>
          obtain ⟨rfl, rfl⟩ := List.cons.inj tail
          exact (picked.not_before (fun left right => (alike left right).2) repeated).elim
      · cases middle with
        | nil =>
          obtain ⟨same, _⟩ := List.cons.inj tail
          exact congrArg some (picked.unscored_eq repeated (by simp) same.symm)
        | cons _ middle =>
          obtain ⟨rfl, rfl⟩ := List.cons.inj tail
          exact (repeated.not_before (fun left right => (alike left right).1) picked).elim

end Training

end NfaInduction
