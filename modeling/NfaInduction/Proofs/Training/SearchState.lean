import NfaInduction.Proofs.Except
import NfaInduction.Training.Search

/-! What a search finds does not depend on the automata in which it tries the merges. -/

namespace NfaInduction

namespace Training

/-- The automaton with a state absorbed by an earlier one, if it accepts no negative sample. -/
def safeMerge? (negatives : List Sample) (hypothesis : Automaton) (state earlier : Nat) :
    Except Fault (Option Automaton) := do
  let merged ← (hypothesis.merge earlier state).toExcept
  if ← merged.acceptsAny negatives then return none
  return some merged

/-- The first partner among the earlier states from a position on. -/
def firstPartner (negatives : List Sample) (hypothesis : Automaton) (state : Nat) :
    (position : Nat) → (earlier : List Nat) → Except Fault (Option Choice)
  | _, [] => .ok none
  | position, candidate :: rest => do
    match ← safeMerge? negatives hypothesis state candidate with
    | some merged => return some ⟨⟨position, candidate, none⟩, merged⟩
    | none => firstPartner negatives hypothesis state (position + 1) rest

/-- The best partner among the earlier states from a position on and the best one before it. -/
def bestPartner (negatives remaining : List Sample) (hypothesis : Automaton) (state : Nat) :
    (position : Nat) → (best : Option Choice) → (earlier : List Nat) → Except Fault Findings
  | _, best, [] => .ok ⟨[], best⟩
  | position, best, candidate :: rest => do
    match ← safeMerge? negatives hypothesis state candidate with
    | none => bestPartner negatives remaining hypothesis state (position + 1) best rest
    | some merged =>
      let score ← merged.acceptedCount remaining
      let partner : Partner := ⟨position, candidate, some score⟩
      -- Of two partners with one score, the earlier stays.
      let best := if improves score (best.map (·.partner)) then some ⟨partner, merged⟩ else best
      let found ← bestPartner negatives remaining hypothesis state (position + 1) best rest
      return { found with counted := partner :: found.counted }

namespace SearchState

variable {source : Type} {initial work : SearchState source} {negatives remaining : List Sample}
  {state : Nat}

/-- A search has changed nothing but the two automata it tries merges in, and holds what was chosen. -/
def Holds (initial work : SearchState source) (choice : Option Choice) : Prop :=
  ∃ candidate, work = { initial with candidate, best := choice.elim initial.best (·.merged) }

/-- A search found something and holds what it found. -/
structure Leaves (initial : SearchState source) (found : Findings) (searched : Searched source) :
    Prop where
  /-- The same partners were counted. -/
  counted : searched.counted = found.counted
  /-- The same partner was chosen. -/
  partner : searched.partner = found.choice.map (·.partner)
  /-- Only the automata in which merges are tried have changed. -/
  holds : initial.Holds searched.work found.choice

/-- Whatever an automaton held before, a merge is tried in a copy of the hypothesis. -/
theorem tryMerge_eq (work : SearchState source) (state earlier : Nat) :
    work.tryMerge state earlier =
      (work.hypothesis.merge earlier state).toExcept.map ({ work with candidate := · }) := by
  rw [tryMerge, Automaton.cloneFrom_eq]
  cases (work.hypothesis.merge earlier state).toExcept with
  | ok merged => rfl
  | error fault => rfl

/-- A partner that is counted by both is counted before those behind it. -/
theorem leaves_counted {found : Except Fault Findings} {searched : Except Fault (Searched source)}
    {partner : Partner} (same : SameOutcome initial.Leaves found searched) :
    SameOutcome initial.Leaves
      (do
        let found ← found
        return { found with counted := partner :: found.counted })
      (do
        let searched ← searched
        return { searched with counted := partner :: searched.counted }) :=
  same.bind fun _ _ _ leaves =>
    .ok ⟨congrArg (partner :: ·) leaves.counted, leaves.partner, leaves.holds⟩

/-- A search that stops at the first partner holds its merge. -/
theorem searchFrom_first {position : Nat} {earlier : List Nat} (holds : initial.Holds work none) :
    SameOutcome initial.Leaves
      (do return ⟨[], ← firstPartner negatives initial.hypothesis state position earlier⟩)
      (work.searchFrom true negatives remaining state position none earlier) := by
  -- The induction goes on as long as nothing is chosen.
  induction earlier generalizing position work with
  | nil => exact .ok ⟨rfl, rfl, holds⟩
  | cons candidate rest ih =>
    obtain ⟨before, rfl⟩ := holds
    rw [firstPartner, safeMerge?, searchFrom, tryMerge_eq]
    cases (initial.hypothesis.merge candidate state).toExcept with
    | error fault => exact .error fault
    | ok merged =>
      simp only [Except.map, Bind.bind, Except.bind]
      cases merged.acceptsAny negatives with
      | error fault => exact .error fault
      | ok accepted =>
        cases accepted with
        | true => exact ih ⟨merged, rfl⟩
        | false => exact .ok ⟨rfl, rfl, _, rfl⟩

/-- A search for the best partner holds the merge of the best one so far. -/
theorem searchFrom_best {position : Nat} {best : Option Choice} {earlier : List Nat}
    (holds : initial.Holds work best) :
    SameOutcome initial.Leaves
      (bestPartner negatives remaining initial.hypothesis state position best earlier)
      (work.searchFrom false negatives remaining state position (best.map (·.partner)) earlier) := by
  -- The induction carries what is held for the best candidate passed so far.
  induction earlier generalizing position best work with
  | nil => exact .ok ⟨rfl, rfl, holds⟩
  | cons candidate rest ih =>
    obtain ⟨before, rfl⟩ := holds
    rw [bestPartner, safeMerge?, searchFrom, tryMerge_eq]
    cases (initial.hypothesis.merge candidate state).toExcept with
    | error fault => exact .error fault
    | ok merged =>
      simp only [Except.map, Bind.bind, Except.bind]
      cases merged.acceptsAny negatives with
      | error fault => exact .error fault
      | ok accepted =>
        cases accepted with
        | true => exact ih ⟨merged, rfl⟩
        | false =>
          simp only [Pure.pure, Except.pure, Bool.false_eq_true, if_false]
          cases merged.acceptedCount remaining with
          | error fault => exact .error fault
          | ok score =>
            -- The scratch automata change places exactly if the choice changes.
            by_cases better : improves score (best.map (·.partner))
            · simp only [better, if_true]
              exact leaves_counted (ih ⟨_, rfl⟩)
            · simp only [better]
              exact leaves_counted (ih ⟨_, rfl⟩)

/-- What a search found is known from the partner it chose and from the merge it holds. -/
theorem findings_of_leaves {found : Except Fault Findings} {searched : Except Fault (Searched source)}
    (same : SameOutcome initial.Leaves found searched) :
    (do
      let searched ← searched
      return ⟨searched.counted, searched.partner.map (⟨·, searched.work.best⟩)⟩) = found := by
  -- The best automaton left in the scratch space is the one the choice carries.
  cases same with
  | error fault => rfl
  | @ok found searched leaves =>
    obtain ⟨counted, choice⟩ := found
    obtain ⟨candidate, held⟩ := leaves.holds
    refine congrArg Except.ok ?_
    rw [leaves.counted, leaves.partner, held]
    cases choice <;> rfl

end SearchState

section Search

variable (skipBestSearch : Bool) (negatives remaining : List Sample)

/-- What becomes of a search is decided by one automaton and some of its states. -/
theorem SearchState.searchFrom_leaves {source : Type} (work : SearchState source) (state : Nat)
    (earlier : List Nat) :
    SameOutcome work.Leaves
      (if skipBestSearch then do
        return ⟨[], ← firstPartner negatives work.hypothesis state 0 earlier⟩
      else bestPartner negatives remaining work.hypothesis state 0 none earlier)
      (work.searchFrom skipBestSearch negatives remaining state 0 none earlier) := by
  -- At first nothing is chosen, and the automata are as they are.
  have holds : work.Holds work none := ⟨work.candidate, rfl⟩
  cases skipBestSearch with
  | true => exact searchFrom_first holds
  | false => exact searchFrom_best holds

/-- A search finds the first partner, or the best one. -/
theorem search_eq (hypothesis : Automaton) (state : Nat) (earlier : List Nat) :
    search skipBestSearch negatives remaining hypothesis state earlier =
      if skipBestSearch then do
        return ⟨[], ← firstPartner negatives hypothesis state 0 earlier⟩
      else bestPartner negatives remaining hypothesis state 0 none earlier := by
  let work : SearchState Unit := ⟨hypothesis, hypothesis, hypothesis, earlier ++ [state], ()⟩
  have leaves := work.searchFrom_leaves skipBestSearch negatives remaining state earlier
  -- The state stands behind the earlier ones.
  simp only [search, SearchState.searchPartner, List.getElem_concat_length, List.take_left]
  exact SearchState.findings_of_leaves leaves

/-- What a search finds, and whether it finds it, does not depend on what its automata held before. -/
theorem SearchState.searchPartner_leaves {source : Type} (work : SearchState source) (place : Nat)
    (inside : place < work.states.length) :
    SameOutcome work.Leaves
      (search skipBestSearch negatives remaining work.hypothesis work.states[place]
        (work.states.take place))
      (work.searchPartner skipBestSearch negatives remaining place inside) := by
  rw [search_eq]
  exact work.searchFrom_leaves skipBestSearch negatives remaining _ _

/-- After a search that finds something, only the automata to try merges in have changed. -/
theorem SearchState.searchPartner_of_search {source : Type} (work : SearchState source) {place : Nat}
    (inside : place < work.states.length) {found : Findings}
    (searched : search skipBestSearch negatives remaining work.hypothesis work.states[place]
      (work.states.take place) = .ok found) :
    ∃ candidate, work.searchPartner skipBestSearch negatives remaining place inside =
      .ok ⟨found.counted, found.choice.map (·.partner),
        { work with candidate, best := found.choice.elim work.best (·.merged) }⟩ := by
  -- A search that ended fixes what is left behind, apart from the last candidate tried.
  have leaves := work.searchPartner_leaves skipBestSearch negatives remaining place inside
  rw [searched] at leaves
  obtain ⟨⟨counted, partner, left⟩, done, leaves⟩ := leaves.exists_of_ok_left
  obtain ⟨rfl, rfl, candidate, rfl⟩ := leaves
  exact ⟨candidate, done⟩

end Search

end Training

end NfaInduction
