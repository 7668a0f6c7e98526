import NfaInduction.Proofs.Automaton.Coherence
import NfaInduction.Proofs.Training.Outcome

/-! Training never fails as long as separate paths for all its samples would fit into an automaton. -/

namespace NfaInduction

namespace Training

open PlainAutomaton (pathStates)

/-- All partners that an examination names. -/
def Examination.partners (examination : Examination) : List Partner :=
  examination.counted ++ examination.absorbedBy.toList

namespace SettleState

/-- Whatever the next turn of a settlement touches is there, and the turn succeeds. -/
structure Safe (settings : Settings) (negatives remaining : List Sample) (settling : SettleState) :
    Prop where
  /-- All sets and matrices have one capacity, so that no slot lies outside some of them. -/
  shaped : settling.hypothesis.Shaped
  /-- Both directions of the transitions agree. -/
  consistent : settling.hypothesis.isConsistent
  /-- No state is listed twice. -/
  distinct : (settling.states.toList ++ settling.pending).Nodup
  /-- Listed states are in use. -/
  active : ∀ state ∈ settling.states.toList ++ settling.pending, settling.hypothesis.isActive state
  /-- Any examined state can absorb any waiting one. -/
  merges : ∀ kept ∈ settling.states.toList, ∀ absorbed ∈ settling.pending,
    ∃ merged, settling.hypothesis.merge kept absorbed = .done merged
  /-- The next turn succeeds, and partners stand where it says. -/
  turns : ∃ outcome, settling.turn settings negatives remaining = .ok outcome ∧
    ∀ examination next, outcome = some (examination, next) →
      ∀ partner ∈ examination.partners, partner.Placed settling.states.toList

/-- Partners that a turn names stand where it says. -/
theorem turn_placed {settings : Settings} {negatives remaining : List Sample}
    {settling next : SettleState}
    {examination : Examination}
    (done : settling.turn settings negatives remaining = .ok (some (examination, next))) :
    ∀ partner ∈ examination.partners, partner.Placed settling.states.toList := by
  obtain ⟨_, _, _, _, searched, rfl, _⟩ := exists_of_turn done
  exact search_placed searched

/-- A sound settlement is safe. -/
theorem Sound.safe {settling : SettleState} {negatives remaining : List Sample} {plain : PlainAutomaton}
    (sound : settling.Sound negatives plain)
    (negativesWithin : ∀ negative ∈ negatives, negative.Within plain.alphabetSize)
    (remainingWithin : ∀ sample ∈ remaining, sample.Within plain.alphabetSize)
    (settings : Settings) : settling.Safe settings negatives remaining := by
  -- Any two states of the settling are active and different, so their merge is allowed.
  have represents := sound.represents
  have examined := sound.examined
  have apart := (List.nodup_append'.1 examined.nodup).2.2
  constructor
  case shaped => exact represents.shaped
  case consistent => exact represents.isConsistent
  case distinct => exact examined.nodup
  case active =>
    exact fun state listed => (represents.active state).2 ((examined.active state).2 listed)
  case merges =>
    intro kept keptIn absorbed absorbedIn
    have keptActive := (examined.active kept).2 (List.mem_append_left _ keptIn)
    have absorbedActive := (examined.active absorbed).2 (List.mem_append_right _ absorbedIn)
    have distinct : kept ≠ absorbed := by
      rintro rfl
      exact apart keptIn absorbedIn
    obtain ⟨merged, done, _⟩ := represents.merge_eq_done keptActive absorbedActive distinct
    exact ⟨merged, done⟩
  case turns =>
    cases pending : settling.pending with
    | nil => exact ⟨none, by rw [SettleState.turn, pending], fun examination next same => nomatch same⟩
    | cons state waiting =>
      obtain ⟨examination, next, done, _⟩ :=
        sound.turn negativesWithin remainingWithin settings pending
      refine ⟨_, done, fun other after same => ?_⟩
      cases same
      exact turn_placed done

end SettleState

variable {source : Type}

namespace Session

section Source

variable [WordSource source]

/-- Whatever may be asked of a session is answered, and what is asserted meanwhile holds. -/
structure Safe (session : Session source) : Prop where
  /-- No more samples are processed than there are. -/
  processed_le : session.processed ≤ session.samples.positives.length
  /-- The next step succeeds, and the samples processed by then are told from the negative ones. -/
  steps : ∃ report after, session.step = .ok (report, after) ∧
    after.hypothesis.Separates (after.samples.positives.take after.processed)
      after.samples.negatives ∧
    -- A percentage is told of a step only, and of no more samples than can be counted.
    (report.isSome → 0 < after.samples.positives.length ∧ after.processed * 100 < UInt64.size)
  /-- A path can be added for the next sample, and every turn taken with its states is safe. -/
  learns : ∀ sample remaining,
    session.samples.positives.drop session.processed = sample :: remaining →
    ∃ path, coerce session.hypothesis sample = .ok path ∧ path.automaton.isMatch sample = .ok true ∧
      ∀ settling,
        (session.settling path).Reaches session.settings session.samples.negatives remaining settling →
        settling.Safe session.settings session.samples.negatives remaining
  /-- The run can be finished. -/
  finishes : ∃ events after, session.finish = .ok (events, after)

/-- A step tells of itself only as long as there are positive samples left. -/
theorem drop_ne_nil_of_step {session after : Session source} {report : StepReport}
    (done : session.step = .ok (some report, after)) :
    session.samples.positives.drop session.processed ≠ [] := by
  intro none
  rw [Session.step, none] at done
  cases done

end Source

variable {session : Session source} {count : Nat} {plain : PlainAutomaton}

/-- The samples processed so far are told from the negative ones. -/
theorem Learnt.separates_processed (learnt : session.Learnt count plain) :
    session.hypothesis.Separates (session.samples.positives.take session.processed)
      session.samples.negatives := by
  -- Steps beyond the last sample process none.
  rw [learnt.processed, ← List.take_take, List.take_length]
  exact learnt.separates

/-- No more samples are processed than there are. -/
theorem Learnt.processed_le (learnt : session.Learnt count plain) :
    session.processed ≤ session.samples.positives.length := by
  rw [learnt.processed]
  exact Nat.min_le_right _ _

/-- Separate paths for all positive samples would fit into one automaton. -/
def Roomy (session : Session source) : Prop :=
  (Capacity.matrixBytes session.samples.alphabetSize
    (pathStates session.samples.positives)).isSome

/-- There are so few samples that a percentage of them can be told. -/
theorem Roomy.percent_lt (roomy : session.Roomy) {processed : Nat}
    (few : processed ≤ session.samples.positives.length) : processed * 100 < UInt64.size := by
  have admitted := (Capacity.isSome_tableWords_grown roomy).1
  have lengths := PlainAutomaton.length_le_pathStates session.samples.positives
  have limit : Capacity.maxStates * 100 < UInt64.size := by decide
  omega

section Roomy

variable (learnt : session.Learnt count plain) (roomy : session.Roomy)
include learnt roomy

/-- A path can be added for the next sample. -/
theorem Learnt.coerce_of_roomy {sample : Sample} {remaining : List Sample}
    (next : session.samples.positives.drop session.processed = sample :: remaining) :
    ∃ path, coerce session.hypothesis sample = .ok path := by
  obtain ⟨_, within, _⟩ := learnt.next_positive next
  obtain ⟨_, _, taken⟩ := learnt.drop_eq next
  rw [Roomy, ← learnt.alphabet] at roomy
  refine coerce_of_room learnt.represents roomy within ?_
  -- What is there has come from the samples before this one.
  have before := learnt.grown.card_le
  have all := PlainAutomaton.pathStates_take_le session.samples.positives (count + 1)
  rw [taken, PlainAutomaton.pathStates_append, PlainAutomaton.pathStates_singleton] at all
  omega

variable [WordSource source]

/-- The next step succeeds. -/
theorem Learnt.step_of_roomy : ∃ report after later, session.step = .ok (report, after) ∧
    after.samples = session.samples ∧ after.Learnt (count + 1) later := by
  rcases learnt.step with done | ⟨fault, _, sample, remaining, next, failed⟩
  · exact done
  · obtain ⟨path, coerced⟩ := learnt.coerce_of_roomy roomy next
    cases failed.symm.trans coerced

/-- Any number of steps succeed. -/
theorem Learnt.runSteps_of_roomy (more : Nat) :
    ∃ events after, session.runSteps more = .ok (events, after) ∧
      after.samples = session.samples ∧ ∃ later, after.Learnt (count + more) later := by
  -- With room for the paths no step can fail, so the induction has no second outcome.
  let holds (count : Nat) (after : Session source) : Prop :=
    after.samples = session.samples ∧ ∃ later, after.Learnt count later
  have steps : ∀ count (middle : Session source), holds count middle →
      (∃ report after, middle.step = .ok (report, after) ∧ holds (count + 1) after) ∨
      ∃ fault, middle.step = .error fault ∧ False := by
    intro count middle held
    obtain ⟨same, later, kept⟩ := held
    obtain ⟨report, after, next, done, samples, result⟩ :=
      kept.step_of_roomy (by rwa [Roomy, same])
    exact .inl ⟨report, after, done, samples.trans same, next, result⟩
  have start : holds count session := ⟨rfl, plain, learnt⟩
  rcases runSteps_induction steps start more with done | ⟨_, _, impossible⟩
  · exact done
  · exact impossible.elim

/-- Whatever may be asked of the session is answered. -/
theorem Learnt.safe : session.Safe := by
  constructor
  case processed_le => exact learnt.processed_le
  case steps =>
    obtain ⟨report, after, later, done, same, kept⟩ := learnt.step_of_roomy roomy
    -- There is a sample for each step that tells of itself.
    have few := kept.processed_le
    refine ⟨report, after, done, kept.separates_processed, fun told => ?_⟩
    obtain ⟨report, rfl⟩ := Option.isSome_iff_exists.1 told
    rw [same] at few ⊢
    refine ⟨List.length_pos_iff.2 fun none => ?_, roomy.percent_lt few⟩
    exact drop_ne_nil_of_step done (by rw [none, List.drop_nil])
  case learns =>
    intro sample remaining next
    obtain ⟨path, coerced⟩ := learnt.coerce_of_roomy roomy next
    obtain ⟨grown, spells, sound⟩ := learnt.settling next coerced
    obtain ⟨_, within, remainingWithin⟩ := learnt.next_positive next
    have negativesWithin := learnt.within.2
    rw [← spells.alphabet] at within remainingWithin negativesWithin
    refine ⟨path, coerced, ?_, fun settling reaches => ?_⟩
    · exact (sound.represents.isMatch_eq_true within).2 ((spells.accepts sample).2 (.inr rfl))
    · obtain ⟨change, later⟩ := sound.reaches negativesWithin remainingWithin session.settings reaches
      exact later.safe negativesWithin remainingWithin session.settings
  case finishes =>
    obtain ⟨events, after, run, _⟩ :=
      learnt.runSteps_of_roomy roomy session.samples.positives.length
    exact ⟨_, after, by rw [Session.finish, bind_of_ok run]; rfl⟩

end Roomy

end Session

variable [WordSource source]

/-- A run on samples without a conflict answers every call if paths for them would fit, in any order. -/
theorem safe_run {samples : SampleSet}
    (disjoint : ∀ sample ∈ samples.positives, sample ∉ samples.negatives)
    (room : (Capacity.matrixBytes samples.alphabetSize (pathStates samples.positives)).isSome)
    (settings : Settings) (random : source) :
    ∃ session, Session.start settings samples random = .ok session ∧
      ∀ count, ∃ events after, session.runSteps count = .ok (events, after) ∧ after.Safe := by
  -- The first block is never larger than what the paths need, so the start has room as well.
  have first : Capacity.block ≤ Capacity.grown (pathStates samples.positives) :=
    Nat.le_max_right _ _
  have addressable :=
    Capacity.isSome_tableWords_of_le first (Capacity.isSome_tableWords_grown room).2
  have started := Session.start_of_disjoint disjoint settings random
  rw [Automaton.ofAlphabet_of_isSome addressable] at started
  rcases Session.start_learnt disjoint settings random with
    ⟨session, again, same, learnt⟩ | ⟨fault, failed, _⟩
  · refine ⟨session, again, fun count => ?_⟩
    have roomy : ∀ after : Session source, after.samples = session.samples → after.Roomy := by
      intro after kept
      rw [Session.Roomy, kept, same, PlainAutomaton.pathStates_perm samples.perm_positives_sort]
      exact room
    obtain ⟨events, after, run, kept, later, result⟩ :=
      learnt.runSteps_of_roomy (roomy session rfl) count
    exact ⟨events, after, run, result.safe (roomy after kept)⟩
  · cases failed.symm.trans started

/-- The path for one sample out of a pair fits, so that every call is answered. -/
theorem safe_run_pair : ∃ session,
    Session.start {} samplePair (WordCycle.ofList [7]) = .ok session ∧
      ∀ count, ∃ events after, session.runSteps count = .ok (events, after) ∧ after.Safe :=
  safe_run samplePair_disjoint (by decide +kernel) {} (WordCycle.ofList [7])

end Training

end NfaInduction
