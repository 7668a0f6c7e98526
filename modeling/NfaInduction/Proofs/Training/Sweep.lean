import NfaInduction.Proofs.Training.Outcome
import NfaInduction.Proofs.Training.Rounds

/-! Every new state is examined exactly once, against the older states and the new ones kept before it. -/

namespace NfaInduction

namespace Training

/-- The states that were examined and kept, in the order of the rounds. -/
def survivors (rounds : List Round) : List Nat :=
  (rounds.filter (·.absorbedBy.isNone)).map (·.state)

/-- Rounds that examine each of some new states once, and the states that are left by them. -/
structure Sweep (settings : Settings) (older fresh : List Nat) (rounds : List Round)
    (left : List Nat) : Prop where
  /-- Each new state is examined in one round, and no other state is. -/
  perm : (rounds.map (·.state)).Perm fresh
  /-- Without random words they are examined in their order. -/
  inOrder : settings.deterministic → rounds.map (·.state) = fresh
  /-- A state is examined against the older ones and the new ones that were kept before. -/
  examines : ∀ earlier round later, rounds = earlier ++ round :: later →
    round.Examines settings (older ++ survivors earlier)
  /-- The older states are left, and the new ones that were kept. -/
  left : left = older ++ survivors rounds

namespace Sweep

variable {settings : Settings} {older fresh waiting left : List Nat} {state : Nat}
  {round : Round} {rounds : List Round}

/-- Without new states there is nothing to be examined. -/
theorem nil (settings : Settings) (older : List Nat) : Sweep settings older [] [] older where
  perm := .nil
  inOrder _ := rfl
  examines earlier round later split := by simp at split
  left := (List.append_nil older).symm

/-- After a first round the others go on from the states that stay. -/
theorem cons {stays next : List Nat} (sweep : Sweep settings stays next rounds left)
    (examines : round.Examines settings older) (same : round.state = state)
    (others : next.Perm waiting) (inOrder : settings.deterministic → next = waiting)
    (stay : ∀ later, older ++ survivors (round :: later) = stays ++ survivors later) :
    Sweep settings older (state :: waiting) (round :: rounds) left where
  -- The round's own state comes first, and what is left is examined by the rest.
  perm := by
    rw [List.map_cons, same]
    exact (sweep.perm.trans others).cons state
  inOrder deterministic := by
    rw [List.map_cons, same, sweep.inOrder deterministic, inOrder deterministic]
  examines earlier other later split := by
    cases earlier with
    | nil =>
      cases split
      rwa [survivors, List.filter_nil, List.map_nil, List.append_nil]
    | cons head earlier =>
      obtain ⟨rfl, rest⟩ := List.cons.inj split
      rw [stay]
      exact sweep.examines earlier other later rest
  left := by rw [stay, sweep.left]

/-- A state that is kept is one of those against which the others are examined. -/
theorem keep (sweep : Sweep settings (older ++ [state]) waiting rounds left)
    (examines : round.Examines settings older) (same : round.state = state)
    (kept : round.absorbedBy = none) :
    Sweep settings older (state :: waiting) (round :: rounds) left :=
  sweep.cons examines same (.refl waiting) (fun _ => rfl) fun later => by
    simp [survivors, kept, same]

/-- A state that is absorbed is not examined against any more, and its place is filled. -/
theorem absorb (sweep : Sweep settings older (waitingAfterMerge settings.deterministic waiting)
      rounds left) (examines : round.Examines settings older) (same : round.state = state)
    {partner : Partner} (absorbed : round.absorbedBy = some partner) :
    Sweep settings older (state :: waiting) (round :: rounds) left := by
  refine sweep.cons examines same (waitingAfterMerge_perm _ waiting) (fun deterministic => ?_)
    fun later => ?_
  · rw [waitingAfterMerge, if_pos deterministic]
  · simp [survivors, absorbed]

/-- It does not matter for the others in which order new states were put before. -/
theorem of_perm {listed : List Nat} (sweep : Sweep settings older fresh rounds left)
    (same : fresh.Perm listed) (inOrder : settings.deterministic → fresh = listed) :
    Sweep settings older listed rounds left where
  perm := sweep.perm.trans same
  inOrder deterministic := (sweep.inOrder deterministic).trans (inOrder deterministic)
  examines := sweep.examines
  left := sweep.left

/-- The older states keep their places in each round and are left there. -/
theorem older_prefix (sweep : Sweep settings older fresh rounds left) :
    (∀ round ∈ rounds, older <+: round.states) ∧ older <+: left := by
  -- Survivors are appended, so the older states stay at the front of every list.
  constructor
  · intro round member
    obtain ⟨earlier, later, split⟩ := List.append_of_mem member
    have front := (sweep.examines earlier round later split).front
    exact (List.prefix_append _ _).trans (front ▸ List.take_prefix _ _)
  · rw [sweep.left]
    exact List.prefix_append _ _

end Sweep

/-- Rounds in place sweep over the states that wait. -/
theorem SearchState.LaysOut.sweeps {source : Type} {settings : Settings}
    {negatives remaining : List Sample} {settling last : SearchState source} {place : Nat}
    {table : SettleState}
    (lays : settling.LaysOut place table) {rounds : List Round}
    (merged : settling.mergeFrom settings negatives remaining place = .ok (rounds, last)) :
    Sweep settings table.states.toList table.pending rounds last.states := by
  -- After each round one state waits less, and it may have joined those that stay.
  induction count : table.pending.length generalizing settling place table rounds with
  | zero =>
    have none := List.eq_nil_of_length_eq_zero count
    have length := lays.length_eq
    rw [SearchState.mergeFrom, dif_neg (by omega)] at merged
    cases merged
    rw [lays.states, none, List.append_nil]
    exact .nil settings _
  | succ count ih =>
    have inside : place < settling.states.length := by
      rw [lays.length_eq]
      omega
    rw [mergeFrom_of_inside inside] at merged
    obtain ⟨⟨round, next, after⟩, taken, merged⟩ := bind_eq_ok.1 merged
    obtain ⟨⟨later, final⟩, goesOn, merged⟩ := bind_eq_ok.1 merged
    cases merged
    obtain ⟨turn, done, turned⟩ := lays.exists_turn inside taken
    obtain ⟨examination, left, rfl, outcome, _, laysAfter⟩ := turned.turn
    have fewer := SettleState.length_pending_of_turn done
    have sweep := ih laysAfter goesOn (by omega)
    obtain ⟨current, waiting, found, pending, _, rfl, rfl⟩ := SettleState.exists_of_turn done
    obtain ⟨_, state, absorbed⟩ : _ ∧ round.state = current ∧ round.absorbedBy = _ := by
      simpa only [Round.outcome, Examination.outcome, Prod.mk.injEq] using outcome
    rw [pending]
    cases choice : found.choice with
    | none =>
      rw [choice] at sweep absorbed
      rw [SettleState.resolve, Array.toList_push] at sweep
      exact sweep.keep turned.examines state absorbed
    | some chosen =>
      rw [choice] at sweep absorbed
      exact sweep.absorb turned.examines state absorbed

/--
Each step that adds a path examines every state on it exactly once.

The rounds end after one for each symbol of the sample and one more, whatever is merged on the way,
and a state is examined against the older states and the new ones that were kept before it.
-/
theorem sweeps_run {source : Type} [WordSource source] {settings : Settings} {samples : SampleSet}
    {random : source} {count : Nat} {events : List Event} {session : Session source}
    (run : afterSteps settings samples random count = .ok (events, session)) {sample : Sample}
    {remaining : List Sample}
    (next : session.samples.positives.drop session.processed = sample :: remaining)
    (rejected : session.hypothesis.isMatch sample = .ok false) {path : Path}
    (coerced : coerce session.hypothesis sample = .ok path) (candidate best : Automaton) :
    ∃ rounds settling,
      ((session.searchState candidate best).withPath path).mergePending session.settings
        session.samples.negatives remaining session.states.size = .ok (rounds, settling) ∧
      rounds.length = sample.length + 1 ∧
      path.states.length = sample.length + 1 ∧ path.states.Nodup ∧
      (∀ state, state ∈ session.states.toList ↔ session.hypothesis.isActive state) ∧
      (∀ state ∈ path.states, state ∉ session.states.toList) ∧
      Sweep session.settings session.states.toList path.states rounds settling.states ∧
      (∀ round ∈ rounds, session.states.toList <+: round.states) ∧
      ∃ report after, session.step = .ok (some report, after) ∧ report.step.coerced ∧
        report.examinations.map Examination.outcome = rounds.map Round.outcome ∧
        after.states.toList = settling.states ∧ after.hypothesis = settling.hypothesis := by
  obtain ⟨first, started, _⟩ := afterSteps_eq_ok.1 run
  have learnt := afterSteps_learnt (Session.disjoint_of_start started) settings random count
  rw [run] at learnt
  obtain ⟨_, plain, learnt⟩ := learnt
  obtain ⟨grown, settlement, _, spells, settled, _⟩ := learnt.settles next coerced
  have active : ∀ state, state ∈ plain.active ↔ state ∈ session.states.toList := fun state => by
    rw [learnt.examined.active, List.append_nil]
  -- The rounds in place end as the settlement does.
  have same := session.settle_mergePending candidate best path remaining
  rw [settled] at same
  obtain ⟨⟨rounds, settling⟩, merged, ended⟩ := same.exists_of_ok_left
  have sweep : Sweep session.settings session.states.toList path.states rounds settling.states := by
    refine ((session.laysOut_searchState candidate best path).sweeps merged).of_perm
      (session.arrange_perm path.states) fun deterministic => ?_
    rw [Session.settling, Session.arrange, if_pos deterministic]
  have lengths : rounds.length = path.states.length := by
    rw [← sweep.perm.length_eq, List.length_map]
  refine ⟨rounds, settling, merged, lengths.trans spells.length_eq, spells.length_eq, spells.nodup,
    fun state => ?_, fun state fresh old => ?_, sweep, sweep.older_prefix.1, _, _,
    session.step_of_settled next rejected coerced settled, rfl, ended.outcomes.symm,
    ended.states.symm, ended.hypothesis.symm⟩
  · rw [← active, Automaton.isActive, learnt.represents.active]
  · exact spells.unused state fresh ((active state).2 old)

/-- The second step on these samples examines the three states of its path. -/
theorem sweeps_run_square : ∃ events session path rounds settling,
    afterSteps {} sampleSquare (WordCycle.ofList [7]) 1 = .ok (events, session) ∧
      session.hypothesis.isMatch [0, 1] = .ok false ∧
      coerce session.hypothesis [0, 1] = .ok path ∧
      ((session.searchState session.hypothesis session.hypothesis).withPath path).mergePending
        session.settings session.samples.negatives [] session.states.size = .ok (rounds, settling) ∧
      rounds.length = 3 ∧ path.states.length = 3 ∧
      Sweep session.settings session.states.toList path.states rounds settling.states := by
  -- The new path has three states, and each is visited in a round of its own.
  obtain ⟨events, session, run, _⟩ :=
    (afterSteps_learnt sampleSquare_disjoint {} (WordCycle.ofList [7]) 1).exists_of_isSome
      (afterSteps_square_isSome 1 (by decide))
  have next := next_square (events, session) (by rw [run]; rfl)
  have computed : ∀ result ∈ (afterSteps {} sampleSquare (WordCycle.ofList [7]) 1).toOption,
      result.2.hypothesis.isMatch [0, 1] = .ok false ∧
        (coerce result.2.hypothesis [0, 1]).isOk := by
    rw [afterSteps, start_square]
    decide +kernel
  obtain ⟨rejected, room⟩ := computed (events, session) (by rw [run]; rfl)
  obtain ⟨path, coerced⟩ := exists_of_isOk room
  obtain ⟨rounds, settling, merged, length, states, _, _, _, sweep, _⟩ :=
    sweeps_run run next rejected coerced session.hypothesis session.hypothesis
  exact ⟨events, session, path, rounds, settling, run, rejected, coerced, merged, length, states, sweep⟩

end Training

end NfaInduction
