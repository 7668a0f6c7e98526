import NfaInduction.Proofs.Training.Outcome

/-! A session lists each state of its automaton once, and every state of a path is listed or absorbed. -/

namespace NfaInduction

/-- An automaton that accepts a word has a state. -/
theorem PlainAutomaton.Accepts.card_pos {plain : PlainAutomaton} {word : List Symbol}
    (accepts : plain.Accepts word) : 0 < plain.active.card := by
  obtain ⟨start, initial, _⟩ := accepts
  exact Finset.card_pos.2 ⟨start, plain.initial_subset initial⟩

namespace Training

variable {negatives remaining : List Sample} {settings : Settings}

/-- An automaton has as many states as are listed, examined or waiting. -/
theorem Examined.card_eq {plain : PlainAutomaton} {states pending : List Nat}
    (examined : Examined negatives plain states pending) :
    plain.active.card = states.length + pending.length := by
  -- Each state is listed, and none of them twice.
  have listed : plain.active = (states ++ pending).toFinset := by
    ext state
    rw [examined.active, List.mem_toFinset]
  rw [listed, List.toFinset_card_of_nodup examined.nodup, List.length_append]

namespace SettleState

/-- Number of states of a settlement, examined or waiting. -/
def size (settling : SettleState) : Nat := settling.states.size + settling.pending.length

/-- A turn leaves a state less exactly if the state is absorbed, and never an examined one. -/
theorem size_of_turn {settling next : SettleState} {examination : Examination}
    (done : settling.turn settings negatives remaining = .ok (some (examination, next))) :
    next.size + (if examination.absorbedBy.isSome then 1 else 0) = settling.size ∧
      settling.states.size ≤ next.states.size := by
  -- The state in hand either joins the settled ones or is absorbed, and no other leaves.
  obtain ⟨state, waiting, found, pending, _, rfl, rfl⟩ := exists_of_turn done
  have fewer := settling.length_pending_resolve settings state waiting found.choice
  rw [size, size, fewer, pending, List.length_cons]
  cases found.choice with
  | none =>
    simp only [resolve, Array.size_push, Option.map_none, Option.isSome_none]
    exact ⟨by simp; omega, Nat.le_succ _⟩
  | some choice =>
    simp only [resolve, Option.map_some, Option.isSome_some, if_true]
    omega

/-- A settlement lists or absorbs each of its states, and keeps those examined before. -/
theorem size_of_settle (settling : SettleState) {settlement : Settlement}
    (settled : settle settings negatives remaining settling.hypothesis settling.states settling.pending =
      .ok settlement) :
    settlement.states.size + settlement.examinations.countP (·.absorbedBy.isSome) = settling.size ∧
      settling.states.size ≤ settlement.states.size := by
  refine settle_induction (motive := fun settling settlement =>
    settlement.states.size + settlement.examinations.countP (·.absorbedBy.isSome) = settling.size ∧
      settling.states.size ≤ settlement.states.size) (fun _ _ => ⟨rfl, Nat.le_refl _⟩) ?_ settled
  intro settling examination next settlement taken later
  -- The state that a turn leaves less is what its examination counts for.
  obtain ⟨turned, grown⟩ := size_of_turn taken
  simp only [List.countP_cons]
  omega

end SettleState

/-- What a step reports agrees with what it did to the automaton. -/
structure Step.Balances (step : Step) (before after : Automaton) (sample : Sample) : Prop where
  /-- A path is added exactly if the sample was rejected. -/
  coerced : before.isMatch sample = .ok (!step.coerced)
  /-- A path adds a state for its start and one for each symbol, and each merge takes one away. -/
  stateCount : after.stateCount + step.merges =
    before.stateCount + if step.coerced then sample.length + 1 else 0
  /-- Nothing is merged without a path. -/
  merges_eq_zero : step.coerced = false → step.merges = 0
  /-- No more states are absorbed than the path has. -/
  merges_le : step.merges ≤ sample.length + 1
  /-- One of them stays if there was no state before. -/
  merges_le_length : before.stateCount = 0 → step.merges ≤ sample.length

namespace Session

variable {source : Type} {session : Session source} {count : Nat} {plain : PlainAutomaton}

/-- A session lists each state of its automaton once, and nothing else. -/
structure Listed (session : Session source) : Prop where
  /-- No state is listed twice. -/
  nodup : session.states.toList.Nodup
  /-- Exactly the active states are listed. -/
  active : ∀ state, state ∈ session.states.toList ↔ session.hypothesis.isActive state

/-- A session lists the states of what it has learnt. -/
theorem Learnt.listed (learnt : session.Learnt count plain) : session.Listed where
  nodup := by simpa using learnt.examined.nodup
  active state := by
    have listed := learnt.examined.active state
    rw [List.append_nil] at listed
    exact listed.symm.trans (learnt.represents.active state).symm

/-- A session lists as many states as its automaton has. -/
theorem Learnt.stateCount_eq (learnt : session.Learnt count plain) :
    session.hypothesis.stateCount = session.states.size := by
  rw [learnt.represents.reports.stateCount, learnt.examined.card_eq, List.length_nil, Nat.add_zero,
    Array.length_toList]

variable [WordSource source]

/-- The books of the next step balance. -/
theorem Learnt.balances (learnt : session.Learnt count plain) {sample : Sample}
    {remaining : List Sample}
    (next : session.samples.positives.drop session.processed = sample :: remaining) :
    session.Proceeds fun report after =>
      report.step.Balances session.hypothesis after.hypothesis sample := by
  -- What a step comes to is one of three cases.
  obtain ⟨_, within, _⟩ := learnt.next_positive next
  have advances := learnt.advances next
  rw [Proceeds]
  generalize session.step = outcome at advances ⊢
  cases advances with
  | known accepted =>
    refine .inl ⟨_, _, rfl, ?_⟩
    exact {
      coerced := (learnt.represents.isMatch_eq_true within).2 accepted
      stateCount := rfl
      merges_eq_zero := fun _ => rfl
      merges_le := Nat.zero_le _
      merges_le_length := fun _ => Nat.zero_le _ }
  | @learnt path grown settlement rejected coerced represents spells settled sound =>
    -- All states that were there or are on the path are listed in the end or absorbed.
    obtain ⟨sizes, kept⟩ := (session.settling path).size_of_settle settled
    have arranged : (session.arrange path.states).1.length = sample.length + 1 := by
      rw [(session.arrange_perm path.states).length_eq, spells.length_eq]
    simp only [SettleState.size, Session.settling, arranged] at sizes kept
    have before := learnt.stateCount_eq
    have after : settlement.hypothesis.stateCount = settlement.states.size := by
      rw [sound.represents.reports.stateCount, sound.examined.card_eq]
      simp
    -- At least one is listed, for the sample is accepted in the end.
    have some : 0 < settlement.hypothesis.stateCount := by
      obtain ⟨change, renamed⟩ := exists_foldl_mergedBy settlement.examinations grown
      have accepts : grown.Accepts sample := (spells.accepts sample).2 (.inr rfl)
      rw [sound.represents.reports.stateCount, renamed]
      exact (accepts.rename change).card_pos
    refine .inl ⟨_, _, rfl, ?_⟩
    dsimp only [pathReport, afterPath]
    constructor
    all_goals dsimp only
    case coerced => exact (learnt.represents.isMatch_eq_false within).2 rejected
    case stateCount =>
      rw [if_pos rfl]
      omega
    case merges_eq_zero => exact fun impossible => nomatch impossible
    case merges_le => omega
    case merges_le_length =>
      intro none
      omega
  | stuck rejected failed =>
    exact .inr ⟨_, rfl, learnt.outgrown ⟨sample, remaining, next, failed⟩⟩

end Session

variable {source : Type} [WordSource source]

/-- After any number of steps each state is listed once, and the books of the next step balance. -/
theorem balances_run {samples : SampleSet}
    (disjoint : ∀ sample ∈ samples.positives, sample ∉ samples.negatives) (settings : Settings)
    (random : source) (count : Nat) :
    Completes samples.alphabetSize
      (fun session => session.Listed ∧ ∀ sample remaining,
        session.samples.positives.drop session.processed = sample :: remaining →
        session.Proceeds fun report after =>
          report.step.Balances session.hypothesis after.hypothesis sample)
      (afterSteps settings samples random count) := by
  refine (afterSteps_learnt disjoint settings random count).imp fun session held => ?_
  obtain ⟨_, plain, learnt⟩ := held
  exact ⟨learnt.listed, fun sample remaining next => learnt.balances next⟩

/-- The second step on these samples adds three states and has all of them absorbed. -/
theorem balances_run_square : ∃ events session report after,
    afterSteps {} sampleSquare (WordCycle.ofList [7]) 1 = .ok (events, session) ∧
      session.Listed ∧ session.step = .ok (some report, after) ∧ report.step = ⟨1, true, 3⟩ ∧
      report.step.Balances session.hypothesis after.hypothesis [0, 1] := by
  -- The second sample adds three states, and each of them is merged away again.
  have completes := balances_run sampleSquare_disjoint {} (WordCycle.ofList [7]) 1
  have reports : ∀ result ∈ (afterSteps {} sampleSquare (WordCycle.ofList [7]) 1).toOption,
      (result.2.step.map fun done => done.1.map (·.step)) = .ok (some ⟨1, true, 3⟩) := by
    rw [afterSteps, start_square]
    decide +kernel
  obtain ⟨events, session, run, listed, balances⟩ :=
    completes.exists_of_isSome (afterSteps_square_isSome 1 (by decide))
  have found : (events, session) ∈ (afterSteps {} sampleSquare (WordCycle.ofList [7]) 1).toOption := by
    rw [run]
    rfl
  have reported := reports _ found
  rcases balances _ _ (next_square _ found) with ⟨report, after, done, balanced⟩ | ⟨fault, failed, _⟩
  · rw [done] at reported
    exact ⟨events, session, report, after, run, listed, done,
      Option.some.inj (Except.ok.inj reported), balanced⟩
  · rw [failed] at reported
    cases reported

end Training

end NfaInduction
