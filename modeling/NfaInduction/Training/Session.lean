import NfaInduction.Random.Source
import NfaInduction.Sample.Set
import NfaInduction.Event
import NfaInduction.Memory
import NfaInduction.Training.Search

/-! A session learns an automaton from samples, one positive sample a step. -/

namespace NfaInduction

namespace Training

/-- How an automaton is trained and what is told about it. -/
structure Settings where
  /-- Whether there is an event for each positive sample. -/
  showProgress : Bool := false
  /-- Whether there is an event for each merge. -/
  showMerges : Bool := false
  /-- Whether there is an event for each partner whose score was counted. -/
  showPossibleMerges : Bool := false
  /-- Whether the first partner is taken instead of the best one. -/
  skipBestSearch : Bool := false
  /-- Whether new states are examined in the order of their path instead of a random one. -/
  deterministic : Bool := false
deriving DecidableEq

/-- Why training did not go on. -/
inductive Failure where
  /-- The samples are refused. -/
  | error (error : Error)
  /-- The automaton outgrew what it admits. -/
  | fault (fault : Fault)
deriving DecidableEq

/-- What a step did. -/
structure Step where
  /-- Index of the sample among the sorted positive samples. -/
  index : Nat
  /-- Whether a path was added for the sample. -/
  coerced : Bool
  /-- Number of states that were absorbed by earlier ones. -/
  merges : Nat
deriving DecidableEq

/-- What became of a new state. -/
structure Examination where
  /-- Place of the state when it was examined. -/
  index : Nat
  /-- The state. -/
  state : Nat
  /-- Partners whose score was counted. -/
  counted : List Partner
  /-- The partner that absorbed the state. -/
  absorbedBy : Option Partner
deriving DecidableEq

/-- An automaton with its new states examined. -/
structure Settlement where
  /-- The automaton. -/
  hypothesis : Automaton
  /-- States that were not absorbed, in the order of search. -/
  states : Array Nat
  /-- What became of each new state. -/
  examinations : List Examination
deriving DecidableEq

/-- The items with the last one moved to the front. -/
def lastFirst (items : List Nat) : List Nat :=
  match items.getLast? with
  | none => []
  | some last => last :: items.dropLast

/-- Moving the last item to the front keeps the number of items. -/
theorem length_lastFirst (items : List Nat) : (lastFirst items).length = items.length := by
  -- A list without a last item is empty, and any other loses one item and gains it again.
  unfold lastFirst
  cases items with
  | nil => rfl
  | cons first rest =>
    simp only [List.getLast?_cons, List.length_cons, List.length_dropLast]
    omega

/-- States that wait after one was absorbed. -/
def waitingAfterMerge (deterministic : Bool) (waiting : List Nat) : List Nat :=
  -- In random order the vacant place is filled from the end.
  if deterministic then waiting else lastFirst waiting

/-- As many states wait after one was absorbed as waited behind it. -/
theorem length_waitingAfterMerge (deterministic : Bool) (waiting : List Nat) :
    (waitingAfterMerge deterministic waiting).length = waiting.length := by
  -- Only their order depends on the mode.
  cases deterministic <;> simp [waitingAfterMerge, length_lastFirst]

/-- Examines the pending states one by one against the states that precede them. -/
def settle (settings : Settings) (negatives remaining : List Sample) (hypothesis : Automaton)
    (states : Array Nat) (pending : List Nat) : Except Fault Settlement :=
  match pending with
  | [] => .ok ⟨hypothesis, states, []⟩
  | state :: waiting => do
    let found ← search settings.skipBestSearch negatives remaining hypothesis state states.toList
    let examination : Examination :=
      ⟨states.size, state, found.counted, found.choice.map (·.partner)⟩
    -- A state without a partner joins the earlier ones, one with a partner is gone.
    let settlement ← match found.choice with
      | none => settle settings negatives remaining hypothesis (states.push state) waiting
      | some choice =>
        settle settings negatives remaining choice.merged states
          (waitingAfterMerge settings.deterministic waiting)
    return { settlement with examinations := examination :: settlement.examinations }
termination_by pending.length
decreasing_by
  · simp
  · simp [length_waitingAfterMerge]

/-- An automaton with a fresh path and the states on it, in the order of the path. -/
structure Path where
  /-- The automaton. -/
  automaton : Automaton
  /-- States on the path. -/
  states : List Nat
deriving DecidableEq

/-- Continues a path from its last state by fresh states, and makes the end final. -/
def extendPath (automaton : Automaton) (last : Nat) : Sample → Except Fault Path
  | [] => do
    let automaton ← (automaton.setFinal last).toExcept
    return ⟨automaton, [last]⟩
  | symbol :: rest => do
    -- The slot is looked for anew, as the one before it is in use by now.
    let next := automaton.inactiveState
    let automaton ← (automaton.setTransition last next symbol).toExcept
    let path ← extendPath automaton next rest
    return { path with states := last :: path.states }

/-- Adds a fresh path that spells a sample from a new initial state to a new final state. -/
def coerce (automaton : Automaton) (sample : Sample) : Except Fault Path := do
  let first := automaton.inactiveState
  let automaton ← (automaton.setInitial first).toExcept
  extendPath automaton first sample

/-- A training run in progress. -/
structure Session (source : Type) where
  /-- How it is trained. -/
  settings : Settings
  /-- Samples in ascending order. -/
  samples : SampleSet
  /-- Number of positive samples processed so far. -/
  processed : Nat
  /-- The automaton learnt so far. -/
  hypothesis : Automaton
  /-- States of the automaton in the order of search. -/
  states : Array Nat
  /-- Source of the order in which new states are examined. -/
  random : source

/-- What is known about a step after it. -/
structure StepReport where
  /-- What the step did. -/
  step : Step
  /-- What became of each new state. -/
  examinations : List Examination
deriving DecidableEq

namespace Session

variable {source : Type} [WordSource source]

/-- What is built for a run on samples in ascending order, unless one is labeled both ways. -/
def unlessConflicting {built : Type} (samples : SampleSet) (build : Except Fault built) :
    Except Failure built :=
  match samples.conflict? with
  | some sample => .error (.error (.conflictingSample sample))
  | none => build.mapError .fault

/-- A run on samples in ascending order before its first step, whose memory is granted. -/
def ofSorted (settings : Settings) (samples : SampleSet) (random : source) :
    Except Failure (Session source) :=
  unlessConflicting samples do
    let hypothesis ← Automaton.ofAlphabet samples.alphabetSize
    return ⟨settings, samples, 0, hypothesis, #[], random⟩

/-- Allocates the automaton of a run, and after it the two that its search works on. -/
def allocate {heap : Type} (allocator : Allocator heap) (alphabetSize : Nat) :
    StateT heap (Except Fault) Automaton := do
  let hypothesis ← Automaton.allocate allocator alphabetSize
  let _candidate ← Automaton.allocate allocator alphabetSize
  let _best ← Automaton.allocate allocator alphabetSize
  return hypothesis

/-- A run on samples in ascending order before its first step, and the memory that is left. -/
def ofSortedOnHeap {heap : Type} (allocator : Allocator heap) (free : heap) (settings : Settings)
    (samples : SampleSet) (random : source) : Except Failure (Session source × heap) :=
  unlessConflicting samples do
    let (hypothesis, rest) ← (allocate allocator samples.alphabetSize).run free
    return (⟨settings, samples, 0, hypothesis, #[], random⟩, rest)

/-- Sorts samples in place before something is attempted on them. -/
def onSorted {outcome : Type} (attempt : SampleSet → Except Failure outcome) :
    ExceptT Failure (StateM SampleSet) outcome := do
  modify SampleSet.sort
  MonadExcept.ofExcept (attempt (← get))

/-- Samples are left in ascending order, whatever comes of the attempt. -/
theorem run_onSorted {outcome : Type} (attempt : SampleSet → Except Failure outcome)
    (samples : SampleSet) :
    (onSorted attempt).run.run samples = (attempt samples.sort, samples.sort) := by
  -- What was sorted is not changed any more, even by a failure.
  change (MonadExcept.ofExcept (attempt samples.sort) :
    ExceptT Failure (StateM SampleSet) outcome).run.run samples.sort = _
  cases attempt samples.sort with
  | ok result => rfl
  | error failure => rfl

/-- Starts a run on samples that are sorted in place, with its memory granted. -/
def startInPlace (settings : Settings) (random : source) :
    ExceptT Failure (StateM SampleSet) (Session source) :=
  onSorted fun samples => ofSorted settings samples random

/-- Starts a run on samples that are sorted in place, with memory from an allocator. -/
def startOnHeap {heap : Type} (allocator : Allocator heap) (free : heap) (settings : Settings)
    (random : source) : ExceptT Failure (StateM SampleSet) (Session source × heap) :=
  onSorted fun samples => ofSortedOnHeap allocator free settings samples random

/-- Starts a run on samples, none of which may be labeled both ways. -/
def start (settings : Settings) (samples : SampleSet) (random : source) :
    Except Failure (Session source) :=
  ((startInPlace settings random).run.run samples).1

omit [WordSource source] in
/-- Samples are left in ascending order, whether or not a run starts on them. -/
theorem run_startInPlace (settings : Settings) (samples : SampleSet) (random : source) :
    (startInPlace settings random).run.run samples =
      (ofSorted settings samples.sort random, samples.sort) :=
  run_onSorted _ samples

omit [WordSource source] in
/-- A run starts on the sorted samples. -/
theorem start_eq (settings : Settings) (samples : SampleSet) (random : source) :
    start settings samples random = ofSorted settings samples.sort random :=
  congrArg Prod.fst (run_startInPlace settings samples random)

/-- The new states in the order in which they are examined. -/
def arrange (session : Session source) (states : List Nat) : List Nat × source :=
  if session.settings.deterministic then (states, session.random)
  else WordSource.shuffle states session.random

/-- Adds a path for the next sample and merges its states where that is safe. -/
def learn (session : Session source) (sample : Sample) (remaining : List Sample) :
    Except Fault (StepReport × Session source) := do
  let path ← coerce session.hypothesis sample
  -- The order of examination is all that randomness decides.
  let (pending, random) := session.arrange path.states
  let settlement ← settle session.settings session.samples.negatives remaining path.automaton
    session.states pending
  let merges := settlement.examinations.countP (·.absorbedBy.isSome)
  return (⟨⟨session.processed, true, merges⟩, settlement.examinations⟩,
    { session with
      processed := session.processed + 1
      hypothesis := settlement.hypothesis
      states := settlement.states
      random := random })

/-- Processes the next positive sample, or does nothing once there is none. -/
def step (session : Session source) : Except Fault (Option StepReport × Session source) :=
  match session.samples.positives.drop session.processed with
  | [] => .ok (none, session)
  | sample :: remaining => do
    -- A sample that is accepted already teaches nothing.
    if ← session.hypothesis.isMatch sample then
      return (some ⟨⟨session.processed, false, 0⟩, []⟩,
        { session with processed := session.processed + 1 })
    let (report, session) ← session.learn sample remaining
    return (some report, session)

/-- Events of an examination. -/
def examinationEvents (settings : Settings) (examination : Examination) : List Event :=
  let { index, state, counted, absorbedBy } := examination
  let possible := counted.map fun partner =>
    Event.possibleMerge partner.position index partner.state state (partner.score.getD 0)
  let committed := absorbedBy.toList.map fun partner =>
    Event.merge partner.position index partner.state state partner.score
  (if settings.showPossibleMerges then possible else []) ++
    (if settings.showMerges then committed else [])

/-- Events of a step that led to this session. -/
def stepEvents (session : Session source) (report : StepReport) : List Event :=
  let total := session.samples.positives.length
  let progress := Event.processed session.processed total (session.processed * 100 / total)
    session.hypothesis.stateCount
  report.examinations.flatMap (examinationEvents session.settings) ++
    (if session.settings.showProgress then [progress] else [])

/-- The event that ends a run. -/
def finishEvent (session : Session source) : Event :=
  .finished session.hypothesis.stateCount session.samples.positives.length
    session.samples.negatives.length

/-- A run after some steps, with the events of these steps. -/
def runSteps (session : Session source) : Nat → Except Fault (List Event × Session source)
  | 0 => .ok ([], session)
  | count + 1 => do
    let (report, session) ← session.step
    let events := (report.map session.stepEvents).getD []
    let (later, session) ← session.runSteps count
    return (events ++ later, session)

/-- A run after all its steps, with all its events. -/
def finish (session : Session source) : Except Fault (List Event × Session source) := do
  let (events, session) ← session.runSteps session.samples.positives.length
  return (events ++ [session.finishEvent], session)

end Session

variable {source : Type} [WordSource source]

/-- Trains an automaton on samples that are sorted in place. -/
def trainInPlace (settings : Settings) (random : source) :
    ExceptT Failure (StateM SampleSet) (List Event × Session source) := do
  let session ← Session.startInPlace settings random
  match session.finish with
  | .ok result => return result
  | .error fault => throw (.fault fault)

/-- Trains an automaton that accepts every positive sample and no negative one. -/
def train (settings : Settings) (samples : SampleSet) (random : source) :
    Except Failure (List Event × Session source) :=
  ((trainInPlace settings random).run.run samples).1

/-- Samples are left in ascending order, whatever becomes of the run on them. -/
theorem run_trainInPlace (settings : Settings) (samples : SampleSet) (random : source) :
    (trainInPlace settings random).run.run samples = (do
      let session ← Session.start settings samples random
      match session.finish with
      | .ok result => return result
      | .error fault => .error (.fault fault), samples.sort) := by
  rw [trainInPlace, ExceptT.run_bind, StateT.run_bind, Session.run_startInPlace, Session.start_eq]
  -- The run is finished on the samples that were sorted for its start.
  cases Session.ofSorted settings samples.sort random with
  | error failure => rfl
  | ok session =>
    simp only [Bind.bind, Except.bind]
    cases session.finish with
    | ok result => rfl
    | error fault => rfl

/-- A run that has been started is finished, if none of its steps fails. -/
theorem train_eq (settings : Settings) (samples : SampleSet) (random : source) :
    train settings samples random = (do
      let session ← Session.start settings samples random
      match session.finish with
      | .ok result => return result
      | .error fault => .error (.fault fault)) :=
  congrArg Prod.fst (run_trainInPlace settings samples random)

end Training

end NfaInduction
