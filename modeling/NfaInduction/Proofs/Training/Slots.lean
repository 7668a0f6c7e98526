import NfaInduction.Proofs.Automaton.Chronicle
import NfaInduction.Proofs.Training.Saturation

/-! Training takes as many slots into use as there are states at a time, and no more. -/

namespace NfaInduction

/-- Where slots are taken behind none that is free, they fill a range up to the most that there were. -/
theorem Capacity.range_union_eq {before after : Finset Nat} {peak : Nat} (kept : before ⊆ after)
    (filled : before ⊆ Finset.range (max peak before.card))
    (lowest : ∀ slot ∈ after, slot ∉ before → slot ≤ before.card) :
    Finset.range (max peak before.card) ∪ after = Finset.range (max peak after.card) := by
  have grows := Finset.card_le_card kept
  have below : after ⊆ Finset.range (max peak after.card) := by
    intro slot member
    rw [Finset.mem_range]
    by_cases old : slot ∈ before
    · have := Finset.mem_range.1 (filled old)
      omega
    · have low := lowest slot member old
      have more := Finset.card_lt_card ((Finset.ssubset_iff_of_subset kept).2 ⟨slot, member, old⟩)
      omega
  refine Finset.Subset.antisymm (Finset.union_subset (Finset.range_mono (by omega)) below) ?_
  -- If there are more of them than ever before, nothing is left out.
  rcases Nat.le_total after.card peak with few | many
  · rw [Nat.max_eq_left few]
    exact (Finset.range_mono (Nat.le_max_left _ _)).trans Finset.subset_union_left
  · rw [Nat.max_eq_right many] at below ⊢
    have all := Finset.eq_of_subset_of_card_le below (by rw [Finset.card_range])
    exact all.superset.trans Finset.subset_union_right

namespace Chronicle

variable {chronicle : Chronicle} {peak : Nat} {plain next : PlainAutomaton}

/-- The slots ever in use are as many as there were states at an earlier peak, or as there are now. -/
def Filled (chronicle : Chronicle) (peak : Nat) : Prop :=
  chronicle.seen = Finset.range (max peak chronicle.automaton.stateCount)

/-- A call that takes no slot into use but the lowest free one keeps the slots filled. -/
theorem Filled.call (filled : chronicle.Filled peak) (sound : chronicle.Sound)
    (represents : chronicle.automaton.Represents plain) {call : Automaton.Call}
    (after : (chronicle.call call).automaton.Represents next) (kept : plain.active ⊆ next.active)
    (lowest : next.active ⊆ insert chronicle.automaton.inactiveState plain.active) :
    (chronicle.call call).Filled peak := by
  have used := sound.used
  rw [Filled, represents.reports.stateCount] at filled
  rw [represents.usedSlots_eq, filled] at used
  have seen : (chronicle.call call).seen = chronicle.seen ∪ next.active :=
    congrArg (chronicle.seen ∪ ·) after.usedSlots_eq
  rw [Filled, after.reports.stateCount, seen, filled]
  refine Capacity.range_union_eq kept used fun slot member free => ?_
  -- Below the lowest free slot there is a state for each slot.
  rw [(Finset.mem_insert.1 (lowest member)).resolve_right free]
  exact represents.inactiveState_le_card

end Chronicle

namespace Training

/-- The calls by which a path is continued from its last state. -/
def extendCalls (automaton : Automaton) (last : Nat) : Sample → List Automaton.Call
  | [] => [.setFinal last]
  | symbol :: rest =>
    let next := automaton.inactiveState
    let call := Automaton.Call.setTransition last next symbol
    call :: extendCalls (automaton.call call).automaton next rest

/-- The calls by which a fresh path is added for a sample. -/
def coerceCalls (automaton : Automaton) (sample : Sample) : List Automaton.Call :=
  let first := automaton.inactiveState
  let call := Automaton.Call.setInitial first
  call :: extendCalls (automaton.call call).automaton first sample

/-- The call by which an examined state is absorbed, if it is. -/
def Examination.calls (examination : Examination) : List Automaton.Call :=
  (examination.absorbedBy.map fun partner => .merge partner.state examination.state).toList

/-- A history of the automaton of a run, and the most states it ever had right after a path was added. -/
structure Record where
  /-- The automaton with the slots that were ever in use. -/
  chronicle : Chronicle
  /-- The largest number of states. -/
  peak : Nat

namespace Record

/-- The record of a run that starts with an automaton without states. -/
def start (hypothesis : Automaton) : Record := ⟨.start hypothesis, 0⟩

/-- The record once a path has been added for a sample. -/
def coerce (record : Record) (sample : Sample) : Record :=
  let calls := coerceCalls record.chronicle.automaton sample
  let chronicle := calls.foldl Chronicle.call record.chronicle
  ⟨chronicle, max record.peak chronicle.automaton.stateCount⟩

/-- The record once a state has been examined. -/
def examine (record : Record) (examination : Examination) : Record :=
  { record with chronicle := examination.calls.foldl Chronicle.call record.chronicle }

/-- The record once a step has been taken from a session, with what is known about the step. -/
def step {source : Type} (record : Record) (session : Session source) (report : Option StepReport) :
    Record :=
  match report, session.samples.positives.drop session.processed with
  | some ⟨⟨_, true, _⟩, examinations⟩, sample :: _ =>
    examinations.foldl examine (record.coerce sample)
  | _, _ => record

/-- A record of an automaton that has filled its slots. -/
structure Sound (record : Record) (hypothesis : Automaton) : Prop where
  /-- The calls that were recorded have led to the automaton. -/
  automaton : record.chronicle.automaton = hypothesis
  /-- Its room is what was called for. -/
  chronicle : record.chronicle.Sound
  /-- Slots were taken into use up to the largest number of states. -/
  seen : record.chronicle.seen = Finset.range record.peak

/-- No slot was ever taken into use while there was a lower one. -/
structure Frugal (record : Record) (hypothesis : Automaton) : Prop where
  /-- The calls that were recorded have led to the automaton. -/
  automaton : record.chronicle.automaton = hypothesis
  /-- The slots that were ever in use are as many as there were states at a time. -/
  seen : record.chronicle.seen = Finset.range record.peak
  /-- The highest one of them is the last of so many. -/
  highest : ∀ slot, IsGreatest (record.chronicle.seen : Set Nat) slot → slot + 1 = record.peak
  /-- Every state that is in use has its slot below the largest number of states. -/
  active_lt : ∀ state, hypothesis.isActive state → state < record.peak
  /-- There are no more states than there were at that time. -/
  stateCount_le : hypothesis.stateCount ≤ record.peak
  /-- There is no more room than they called for. -/
  maxStates : hypothesis.maxStates = Capacity.grown record.peak

variable {record : Record} {hypothesis : Automaton}

/-- There are no more states than slots that were ever in use. -/
theorem Sound.stateCount_le (sound : record.Sound hypothesis) :
    hypothesis.stateCount ≤ record.peak := by
  -- The active states are among the slots seen so far, which are as many as the peak.
  obtain ⟨rfl, chronicle, seen⟩ := sound
  obtain ⟨plain, represents⟩ := chronicle.represents
  have used := chronicle.used
  rw [represents.usedSlots_eq, seen] at used
  rw [represents.reports.stateCount]
  simpa using Finset.card_le_card used

/-- The slots of a sound record tell how many states there were. -/
theorem Sound.frugal (sound : record.Sound hypothesis) : record.Frugal hypothesis := by
  -- The slots seen are an initial stretch, so its length is the span that sizes the arrays.
  have few := sound.stateCount_le
  obtain ⟨rfl, chronicle, seen⟩ := sound
  have span : Capacity.span record.chronicle.seen = record.peak := by
    rw [seen, Capacity.span_range]
  constructor
  case automaton => rfl
  case seen => exact seen
  case highest => exact fun slot greatest => span ▸ (Capacity.span_of_isGreatest greatest).symm
  case active_lt =>
    intro state active
    obtain ⟨plain, represents⟩ := chronicle.represents
    have member := (represents.active state).1 active
    rw [← represents.usedSlots_eq] at member
    exact Finset.mem_range.1 (seen ▸ chronicle.used member)
  case stateCount_le => exact few
  case maxStates => exact span ▸ chronicle.maxStates

end Record

section Path

variable {chronicle : Chronicle} {peak : Nat} {plain : PlainAutomaton} {sample : Sample} {path : Path}
  (sound : chronicle.Sound) (filled : chronicle.Filled peak)
  (represents : chronicle.automaton.Represents plain) (within : sample.Within plain.alphabetSize)
include sound filled represents within

/-- The calls that continue a path lead to it, and they take the lowest free slots into use. -/
theorem extendCalls_filled {last : Nat} (lastIn : last ∈ plain.active)
    (done : extendPath chronicle.automaton last sample = .ok path) :
    ((extendCalls chronicle.automaton last sample).foldl Chronicle.call chronicle).automaton =
        path.automaton ∧
      ((extendCalls chronicle.automaton last sample).foldl Chronicle.call chronicle).Filled peak := by
  -- The induction follows the sample, and the chronicle is that of the path so far.
  induction sample generalizing chronicle plain last path with
  | nil =>
    obtain ⟨flagged, made, result⟩ := represents.setFinal_of_mem lastIn
    have called : (chronicle.call (.setFinal last)).automaton = flagged := congrArg Edit.automaton made
    rw [extendPath, made] at done
    cases done
    -- The last state is in use already.
    have same : (plain.setFinal last).active = plain.active := Finset.insert_eq_of_mem lastIn
    refine ⟨called, filled.call sound represents (called ▸ result) ?_ ?_⟩
    · rw [same]
    · rw [same]
      exact Finset.subset_insert _ _
  | cons symbol rest ih =>
    obtain ⟨inAlphabet, restWithin⟩ := within.of_cons
    rw [extendPath] at done
    rcases represents.setTransition last chronicle.automaton.inactiveState inAlphabet with
      ⟨joined, made, result⟩ | ⟨_, failed, _⟩ | ⟨_, _, failed, _⟩
    · have called : (chronicle.call (.setTransition last chronicle.automaton.inactiveState
          symbol)).automaton = joined := congrArg Edit.automaton made
      rw [made] at done
      obtain ⟨_, again, done⟩ := bind_eq_ok.1 done
      cases again
      obtain ⟨later, extended, ends⟩ := bind_eq_ok.1 done
      cases ends
      -- The only slot that is new is the lowest free one.
      have added : (plain.setTransition last chronicle.automaton.inactiveState symbol.toNat
          inAlphabet).active = insert chronicle.automaton.inactiveState plain.active := by
        rw [PlainAutomaton.setTransition_active, PlainAutomaton.addState_active,
          PlainAutomaton.addState_active, Finset.insert_eq_of_mem lastIn]
      rw [← called] at result extended
      have first := filled.call sound represents result (added ▸ Finset.subset_insert _ _)
        added.subset
      have onward := ih (sound.call _) first result restWithin (added ▸ Finset.mem_insert_self _ _)
        extended
      exact onward
    -- A path that has been completed has met no fault.
    · rw [failed] at done
      cases done
    · rw [failed] at done
      cases done

/-- The calls that add a path lead to it, and they take the lowest free slots into use. -/
theorem coerceCalls_filled (done : coerce chronicle.automaton sample = .ok path) :
    ((coerceCalls chronicle.automaton sample).foldl Chronicle.call chronicle).automaton =
        path.automaton ∧
      ((coerceCalls chronicle.automaton sample).foldl Chronicle.call chronicle).Filled peak := by
  rw [coerce] at done
  rcases represents.setInitial chronicle.automaton.inactiveState with
    ⟨started, made, result⟩ | ⟨_, failed, _⟩
  · have called : (chronicle.call (.setInitial chronicle.automaton.inactiveState)).automaton =
        started := congrArg Edit.automaton made
    rw [made] at done
    have extended : extendPath started chronicle.automaton.inactiveState sample = .ok path := done
    rw [← called] at result extended
    -- The lowest free slot is where the path starts.
    have first := filled.call sound represents result (Finset.subset_insert _ _) (Finset.Subset.refl _)
    exact extendCalls_filled (sound.call _) first result within (Finset.mem_insert_self _ _) extended
  · rw [failed] at done
    cases done

end Path

/-- A path for a sample keeps the slots filled up to the most states that there were, before or now. -/
theorem Record.Sound.coerce {record : Record} {automaton : Automaton} {plain : PlainAutomaton}
    {sample : Sample} {path : Path} (sound : record.Sound automaton)
    (represents : automaton.Represents plain) (within : sample.Within plain.alphabetSize)
    (coerced : Training.coerce automaton sample = .ok path) :
    (record.coerce sample).Sound path.automaton := by
  have few := sound.stateCount_le
  obtain ⟨rfl, chronicle, seen⟩ := sound
  -- Before the path, it is an earlier number of states that counts.
  have filled : record.chronicle.Filled record.peak := by
    rw [Chronicle.Filled, seen, Nat.max_eq_left few]
  obtain ⟨leads, after⟩ := coerceCalls_filled chronicle filled represents within coerced
  exact ⟨leads, chronicle.foldl _, after⟩

section Merges

variable {settings : Settings} {negatives remaining : List Sample}

/-- A record keeps to the settlement that examines states, and sees no new slot meanwhile. -/
theorem Record.Sound.examine {record : Record} {settling next : SettleState} {plain : PlainAutomaton}
    {examination : Examination} (kept : record.Sound settling.hypothesis)
    (sound : settling.Sound negatives plain)
    (negativesWithin : ∀ negative ∈ negatives, negative.Within plain.alphabetSize)
    (remainingWithin : ∀ sample ∈ remaining, sample.Within plain.alphabetSize)
    (done : settling.turn settings negatives remaining = .ok (some (examination, next))) :
    (record.examine examination).Sound next.hypothesis := by
  obtain ⟨state, waiting, found, pending, searched, rfl, rfl⟩ := SettleState.exists_of_turn done
  obtain ⟨stateIn, candidates⟩ := sound.candidates pending
  obtain ⟨_, again, picks⟩ := search_picks sound.represents stateIn negativesWithin remainingWithin
    settings.skipBestSearch candidates
  cases searched.symm.trans again
  cases chosen : found.choice with
  | none => exact kept
  | some choice =>
    rw [chosen] at picks
    obtain ⟨_, _, _, picked⟩ := picks
    -- The merge that was tried for the partner is the one that is recorded.
    have merged : (record.chronicle.call (.merge choice.partner.state state)).automaton =
        choice.merged := by
      have tried := congrArg Edit.automaton picked.merged
      rwa [← kept.automaton] at tried
    exact {
      automaton := merged
      chronicle := kept.chronicle.call _
      seen := (kept.chronicle.seen_merge _ _).trans kept.seen }

/-- A record keeps to a settlement whose examinations it is told one by one. -/
theorem Record.Sound.settle {record : Record} {settling : SettleState} {settlement : Settlement}
    {plain : PlainAutomaton} (kept : record.Sound settling.hypothesis)
    (sound : settling.Sound negatives plain)
    (negativesWithin : ∀ negative ∈ negatives, negative.Within plain.alphabetSize)
    (remainingWithin : ∀ sample ∈ remaining, sample.Within plain.alphabetSize)
    (settled : settle settings negatives remaining settling.hypothesis settling.states settling.pending =
      .ok settlement) :
    (settlement.examinations.foldl Record.examine record).Sound settlement.hypothesis := by
  -- What is true of a settlement is true of any turn from which it goes on.
  refine SettleState.settle_induction (motive := fun settling settlement => ∀ (record : Record) plain,
    record.Sound settling.hypothesis → settling.Sound negatives plain →
    (∀ negative ∈ negatives, negative.Within plain.alphabetSize) →
    (∀ sample ∈ remaining, sample.Within plain.alphabetSize) →
    (settlement.examinations.foldl Record.examine record).Sound settlement.hypothesis)
    ?_ ?_ settled record plain kept sound negativesWithin remainingWithin
  · exact fun _ _ _ _ kept _ _ _ => kept
  · intro settling examination next settlement done goesOn record plain kept sound
      negativesWithin remainingWithin
    have after := sound.of_turn negativesWithin remainingWithin settings done
    have examined := kept.examine sound negativesWithin remainingWithin done
    exact goesOn _ _ examined after (by simpa using negativesWithin) (by simpa using remainingWithin)

end Merges

namespace Session

variable {source : Type} [WordSource source]

/-- The record of a run that goes on from a session for some steps, as long as they succeed. -/
def record (session : Session source) (record : Record) : Nat → Record
  | 0 => record
  | count + 1 =>
    match session.step with
    | .ok (report, after) => after.record (record.step session report) count
    | .error _ => record

variable {session : Session source} {record : Record} {plain : PlainAutomaton}

/-- A path fills the slots, and merges leave those that they free to the paths of later steps. -/
theorem Learnt.record_step {count : Nat} (learnt : session.Learnt count plain)
    (sound : record.Sound session.hypothesis) {report : Option StepReport} {after : Session source}
    (done : session.step = .ok (report, after)) :
    (record.step session report).Sound after.hypothesis := by
  -- A known sample changes nothing; a learnt one adds its path and then merges.
  cases next : session.samples.positives.drop session.processed with
  | nil =>
    rw [Session.step, next] at done
    cases done
    exact sound
  | cons sample remaining =>
    have advances := learnt.advances next
    rw [done] at advances
    cases advances with
    | known accepted =>
      simp only [Record.step]
      exact sound
    | learnt rejected coerced represents spells settled settles =>
      rename_i path grown settlement
      obtain ⟨_, within, remainingWithin⟩ := learnt.next_positive next
      obtain ⟨_, spelled, settling⟩ := learnt.settling next coerced
      have alphabet := spelled.alphabet
      simp only [Record.step, next, pathReport]
      exact (sound.coerce learnt.represents within coerced).settle settling
        (alphabet ▸ learnt.within.2) (alphabet ▸ remainingWithin) settled

/-- What is recorded of a run stays sound as long as its steps succeed. -/
theorem Learnt.record_runSteps {base count : Nat} (learnt : session.Learnt base plain)
    (sound : record.Sound session.hypothesis) {events : List Event} {after : Session source}
    (run : session.runSteps count = .ok (events, after)) :
    (session.record record count).Sound after.hypothesis := by
  -- The induction takes the steps in their order, and the record goes along with the session.
  induction count generalizing session base plain record events with
  | zero =>
    cases run
    exact sound
  | succ count ih =>
    rw [Session.runSteps] at run
    obtain ⟨⟨report, middle⟩, done, run⟩ := bind_eq_ok.1 run
    obtain ⟨⟨later, last⟩, rest, ends⟩ := bind_eq_ok.1 run
    cases ends
    rw [Session.record, done]
    rcases learnt.step with ⟨_, _, _, again, _, following⟩ | ⟨_, failed, _⟩
    · cases done.symm.trans again
      exact ih following (learnt.record_step sound done) rest
    · cases done.symm.trans failed

omit [WordSource source] in
/-- The record of a run starts without slots and states. -/
theorem start_record {samples : SampleSet}
    (disjoint : ∀ sample ∈ samples.positives, sample ∉ samples.negatives) {settings : Settings}
    {random : source} (started : start settings samples random = .ok session) :
    (Record.start session.hypothesis).Sound session.hypothesis := by
  -- A session that started has the empty automaton, for which nothing was ever used.
  rw [start_of_disjoint disjoint] at started
  cases built : Automaton.ofAlphabet samples.alphabetSize with
  | error fault =>
    rw [built] at started
    cases started
  | ok hypothesis =>
    rw [built] at started
    cases started
    have made : (Automaton.ofAlphabet samples.alphabetSize).map Chronicle.start =
        .ok (.start hypothesis) := map_eq_ok.2 ⟨hypothesis, built, rfl⟩
    exact ⟨rfl, Chronicle.lasts_sound.make _ _ made, rfl⟩

end Session

variable {source : Type} [WordSource source]

/-- What is recorded of a run after some of its steps, as long as they succeed. -/
def recordOf (settings : Settings) (samples : SampleSet) (random : source) (count : Nat) :
    Option Record :=
  (Session.start settings samples random).toOption.map fun session =>
    session.record (.start session.hypothesis) count

/-- After any number of steps, the slots that were ever in use are those for the most states at a time. -/
theorem frugal_run {samples : SampleSet}
    (disjoint : ∀ sample ∈ samples.positives, sample ∉ samples.negatives) (settings : Settings)
    (random : source) (count : Nat) :
    Completes samples.alphabetSize
      (fun session => ∃ record, recordOf settings samples random count = some record ∧
        record.Frugal session.hypothesis)
      (afterSteps settings samples random count) := by
  -- The record runs beside the session, and is sound after each of its steps.
  refine (afterSteps_learnt disjoint settings random count).imp_of_eq fun events session run _ => ?_
  obtain ⟨first, started, run⟩ := afterSteps_eq_ok.1 run
  rcases Session.start_learnt disjoint settings random with ⟨_, again, _, learnt⟩ | ⟨_, failed, _⟩
  · cases started.symm.trans again
    have sound := learnt.record_runSteps (Session.start_record disjoint started) run
    exact ⟨_, by rw [recordOf, started]; rfl, sound.frugal⟩
  · cases started.symm.trans failed

/-- Each of two paths needs two states, and the second one takes the slot that the first one gave back. -/
theorem frugal_run_loop : ∃ events session record,
    afterSteps {} sampleLoop (WordCycle.ofList [7]) 2 = .ok (events, session) ∧
      recordOf {} sampleLoop (WordCycle.ofList [7]) 2 = some record ∧
      record.Frugal session.hypothesis ∧ record.peak = 3 := by
  -- Two steps of the example, with three states in use at the most.
  have completes := frugal_run sampleLoop_disjoint {} (WordCycle.ofList [7]) 2
  obtain ⟨events, session, run, record, recorded, frugal⟩ := completes.exists_of_isSome (by
    rw [afterSteps, start_loop]
    decide +kernel)
  have peak : (recordOf {} sampleLoop (WordCycle.ofList [7]) 2).map (·.peak) = some 3 := by
    rw [recordOf, start_loop]
    decide +kernel
  rw [recorded] at peak
  exact ⟨events, session, record, run, recorded, frugal, Option.some.inj peak⟩

end Training

end NfaInduction
