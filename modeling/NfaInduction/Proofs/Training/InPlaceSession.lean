import NfaInduction.Proofs.Training.Listing
import NfaInduction.Proofs.Training.Rounds

/-! What is told of a run has no influence on it, and in order of the paths no random word has any. -/

namespace NfaInduction

namespace Training

open WordSource (SameWords SameDraw advance)

section Agree

variable {settings others : Settings} (agree : settings.Agree others)
  {negatives remaining : List Sample}
include agree

/-- A turn depends on nothing else in the settings. -/
theorem SettleState.turn_of_agree (settling : SettleState) :
    settling.turn settings negatives remaining = settling.turn others negatives remaining := by
  simp only [SettleState.turn, agree.skipBestSearch, settling.resolve_of_agree agree]

/-- A settlement depends on nothing else in the settings. -/
theorem SettleState.settle_of_agree (settling : SettleState) :
    settle settings negatives remaining settling.hypothesis settling.states settling.pending =
      settle others negatives remaining settling.hypothesis settling.states settling.pending := by
  -- After each turn one state waits less.
  induction count : settling.pending.length generalizing settling with
  | zero => rw [List.eq_nil_of_length_eq_zero count, settle, settle]
  | succ count ih =>
    rw [SettleState.settle_eq, SettleState.settle_eq, settling.turn_of_agree agree]
    cases taken : settling.turn others negatives remaining with
    | error fault => rfl
    | ok turn =>
      cases turn with
      | none => rfl
      | some turned =>
        have fewer := SettleState.length_pending_of_turn taken
        simp only [Bind.bind, Except.bind, ih turned.2 (by omega)]

end Agree

/-- A training run in place, with the automata in which merges are tried. -/
structure InPlaceSession (source : Type) where
  /-- How it is trained. -/
  settings : Settings
  /-- Samples in ascending order. -/
  samples : SampleSet
  /-- Number of positive samples processed so far. -/
  processed : Nat
  /-- What has been learnt, and what searches work on. -/
  work : SearchState source

namespace InPlaceSession

variable {source twin : Type}

/-- The session that goes on in place. -/
def session (inPlace : InPlaceSession source) : Session source where
  settings := inPlace.settings
  samples := inPlace.samples
  processed := inPlace.processed
  hypothesis := inPlace.work.hypothesis
  states := inPlace.work.states.toArray
  random := inPlace.work.random

/-- What is told of the progress, if that is asked for. -/
def progress (inPlace : InPlaceSession source) : List Event :=
  let total := inPlace.samples.positives.length
  if inPlace.settings.showProgress then
    [.processed inPlace.processed total (inPlace.processed * 100 / total)
      inPlace.work.hypothesis.stateCount]
  else []

variable [WordSource source] [WordSource twin]

/-- Adds a path for the next sample and merges its states in place. -/
def learn (inPlace : InPlaceSession source) (sample : Sample) (remaining : List Sample) :
    Except Fault (List Round × InPlaceSession source) := do
  let pending := inPlace.work.states.length
  let path ← coerce inPlace.work.hypothesis sample
  let (rounds, work) ← (inPlace.work.withPath path).mergePending inPlace.settings
    inPlace.samples.negatives remaining pending
  return (rounds, { inPlace with processed := inPlace.processed + 1, work })

/-- Processes the next positive sample in place, and tells what happens as it happens. -/
def step (inPlace : InPlaceSession source) :
    Except Fault (List Event × Option Step × InPlaceSession source) :=
  match inPlace.samples.positives.drop inPlace.processed with
  | [] => .ok ([], none, inPlace)
  | sample :: remaining => do
    if ← inPlace.work.hypothesis.isMatch sample then
      let after := { inPlace with processed := inPlace.processed + 1 }
      return (after.progress, some ⟨inPlace.processed, false, 0⟩, after)
    let (rounds, after) ← inPlace.learn sample remaining
    let merges := rounds.countP (·.absorbedBy.isSome)
    return (rounds.flatMap (·.told) ++ after.progress, some ⟨inPlace.processed, true, merges⟩, after)

/-- Takes some steps in place: what they tell, what each of them did, and what they lead to. -/
def run (inPlace : InPlaceSession source) :
    Nat → Except Fault (List Event × List (Option Step) × InPlaceSession source)
  | 0 => .ok ([], [], inPlace)
  | count + 1 => do
    let (told, step, after) ← inPlace.step
    let (later, steps, last) ← after.run count
    return (told ++ later, step :: steps, last)

/-- A path is merged in place as it is settled. -/
theorem settle_mergePending (inPlace : InPlaceSession source) (path : Path) (remaining : List Sample) :
    SameOutcome
      (SearchState.Settled inPlace.settings (inPlace.session.arrange path.states).2)
      (settle inPlace.settings inPlace.samples.negatives remaining path.automaton
        inPlace.work.states.toArray (inPlace.session.arrange path.states).1)
      ((inPlace.work.withPath path).mergePending inPlace.settings inPlace.samples.negatives
        remaining inPlace.work.states.length) :=
  inPlace.session.settle_mergePending inPlace.work.candidate inPlace.work.best path remaining

/-- A sample is learnt in place as in the session. -/
theorem session_learn (inPlace : InPlaceSession source) (sample : Sample) (remaining : List Sample) :
    SameOutcome (fun (report, after) (rounds, next) => next.session = after ∧
        report.step = ⟨inPlace.processed, true, rounds.countP (·.absorbedBy.isSome)⟩ ∧
        rounds.flatMap (·.told) =
          report.examinations.flatMap (Session.examinationEvents after.settings))
      (inPlace.session.learn sample remaining) (inPlace.learn sample remaining) := by
  -- The path is grown alike, and then the two kinds of settling have the same outcome.
  refine (SameOutcome.refl (coerce inPlace.work.hypothesis sample)).bind fun path _ _ same => ?_
  subst same
  refine (inPlace.settle_mergePending path remaining).bind fun settlement result _ settled => ?_
  refine .ok ⟨?_, ?_, settled.told⟩
  · simp only [session, settled.hypothesis, settled.states, settled.random,
      Array.toArray_toList]
    rfl
  · simp only [settled.merges]
    rfl

/-- A step in place does what the step of the session does, and tells what is told of it. -/
theorem session_step (inPlace : InPlaceSession source) :
    SameOutcome (fun (report, after) (told, step, next) => next.session = after ∧
        step = report.map (·.step) ∧ told = (report.map after.stepEvents).getD [])
      inPlace.session.step inPlace.step := by
  have left : inPlace.session.samples.positives.drop inPlace.session.processed =
      inPlace.samples.positives.drop inPlace.processed := rfl
  rw [Session.step, step, left]
  cases inPlace.samples.positives.drop inPlace.processed with
  | nil => exact .ok ⟨rfl, rfl, rfl⟩
  | cons sample remaining =>
    refine (SameOutcome.refl (inPlace.work.hypothesis.isMatch sample)).bind
      fun accepted _ _ same => ?_
    subst same
    cases accepted with
    | true => exact .ok ⟨rfl, rfl, rfl⟩
    | false =>
      -- Learning tells of its rounds before the progress is told.
      refine (inPlace.session_learn sample remaining).bind fun result learnt _ same => ?_
      obtain ⟨report, after⟩ := result
      obtain ⟨rounds, next⟩ := learnt
      obtain ⟨rfl, step, told⟩ := same
      refine .ok ⟨rfl, congrArg some step.symm, ?_⟩
      exact congrArg (· ++ next.progress) told

/-- Steps in place are those of the session, and they tell what is told of these. -/
structure Conducts (inPlace : InPlaceSession source) (session : Session source) (count : Nat) : Prop where
  /-- Each step did the same. -/
  steps : SameOutcome
    (fun (reports, after) (_, steps, last) =>
      last.session = after ∧ steps = reports.map (·.map (·.step)))
    (session.records count) (inPlace.run count)
  /-- The same was told. -/
  told : SameOutcome (fun (events, after) (told, _, last) => last.session = after ∧ told = events)
    (session.runSteps count) (inPlace.run count)

/-- A run in place conducts its session. -/
theorem conducts (inPlace : InPlaceSession source) (count : Nat) :
    inPlace.Conducts inPlace.session count := by
  -- The induction is on the steps; one step of either session is one of the other.
  induction count generalizing inPlace with
  | zero => exact ⟨.ok ⟨rfl, rfl⟩, .ok ⟨rfl, rfl⟩⟩
  | succ count ih =>
    constructor
    case steps =>
      refine inPlace.session_step.bind fun result stepped _ same => ?_
      obtain ⟨report, after⟩ := result
      obtain ⟨told, step, next⟩ := stepped
      obtain ⟨rfl, rfl, _⟩ := same
      refine (ih next).steps.bind fun later ran _ same => ?_
      exact .ok ⟨same.1, congrArg (_ :: ·) same.2⟩
    case told =>
      refine inPlace.session_step.bind fun result stepped _ same => ?_
      obtain ⟨report, after⟩ := result
      obtain ⟨told, step, next⟩ := stepped
      obtain ⟨rfl, _, rfl⟩ := same
      refine (ih next).told.bind fun later ran _ same => ?_
      exact .ok ⟨same.1, congrArg (_ ++ ·) same.2⟩

/-- Two runs in place are at the same point, and have drawn as many words. -/
structure Twin (random : source) (other : twin) (deterministic : Bool) (inPlace : InPlaceSession source)
    (again : InPlaceSession twin) : Prop where
  /-- They are trained alike. -/
  agree : again.settings.Agree inPlace.settings
  /-- New states are examined in the order of their path, or else in a random one. -/
  mode : inPlace.settings.deterministic = deterministic
  /-- They learn the same samples. -/
  samples : again.samples = inPlace.samples
  /-- They have processed as many of them. -/
  processed : again.processed = inPlace.processed
  /-- They have learnt the same automaton, down to its slots. -/
  hypothesis : again.work.hypothesis = inPlace.work.hypothesis
  /-- They search its states in the same order. -/
  states : again.work.states = inPlace.work.states
  /-- They have drawn as many words, and none at all without a random order. -/
  drawn : ∃ count, inPlace.work.random = advance random count ∧
    again.work.random = advance other count ∧ (deterministic → count = 0)

/-- Steps of two runs did the same and left them at the same point. -/
abbrev SameSteps (random : source) (other : twin) (deterministic : Bool)
    (result : List Event × List (Option Step) × InPlaceSession source)
    (again : List Event × List (Option Step) × InPlaceSession twin) : Prop :=
  result.2.1 = again.2.1 ∧ Twin random other deterministic result.2.2 again.2.2

section Twin

variable {random : source} {other : twin} {deterministic : Bool} {inPlace : InPlaceSession source}
  {again : InPlaceSession twin} (words : SameWords random other ∨ deterministic)
  (twins : Twin random other deterministic inPlace again)
include words twins

/-- New states are examined in the same order, and as many words are drawn for it. -/
theorem Twin.arrange (states : List Nat) :
    (again.session.arrange states).1 = (inPlace.session.arrange states).1 ∧
      ∃ count, (inPlace.session.arrange states).2 = advance random count ∧
        (again.session.arrange states).2 = advance other count ∧ (deterministic → count = 0) := by
  obtain ⟨count, left, right, none⟩ := twins.drawn
  obtain ⟨agree, rfl, _⟩ := twins
  have before : SameDraw random other ((), inPlace.session.random) ((), again.session.random) :=
    ⟨rfl, count, left, right⟩
  have after := Session.sameDraw_arrange agree.deterministic words before states
  refine ⟨after.value.symm, ?_⟩
  by_cases inOrder : inPlace.settings.deterministic
  · -- Nothing is drawn where the order of the path stays.
    have first : inPlace.session.arrange states = (states, inPlace.work.random) := if_pos inOrder
    have second : again.session.arrange states = (states, again.work.random) :=
      if_pos (agree.deterministic.trans inOrder)
    rw [first, second]
    exact ⟨count, left, right, none⟩
  · obtain ⟨total, drawn, drawnAgain⟩ := after.drawn
    exact ⟨total, drawn, drawnAgain, fun holds => absurd holds inOrder⟩

/-- Runs at the same point learn a sample alike. -/
theorem Twin.learn (sample : Sample) (remaining : List Sample) :
    SameOutcome (fun (rounds, after) (others, next) => rounds.countP (·.absorbedBy.isSome) =
        others.countP (·.absorbedBy.isSome) ∧ Twin random other deterministic after next)
      (inPlace.learn sample remaining) (again.learn sample remaining) := by
  rw [InPlaceSession.learn, InPlaceSession.learn, twins.hypothesis]
  refine (SameOutcome.refl (coerce inPlace.work.hypothesis sample)).bind fun path _ _ same => ?_
  subst same
  obtain ⟨arranged, drawn⟩ := twins.arrange words path.states
  -- Both merge as the same settlement does.
  have settled := (again.settle_mergePending path remaining).symm
  rw [twins.samples, twins.states, arranged,
    SettleState.settle_of_agree twins.agree ⟨path.automaton, inPlace.work.states.toArray,
      (inPlace.session.arrange path.states).1⟩] at settled
  have both := (inPlace.settle_mergePending path remaining).symm.trans settled.symm
  rw [twins.samples, twins.states]
  refine both.bind fun result repeated _ same => ?_
  obtain ⟨settlement, left, right⟩ := same
  refine .ok ⟨left.merges.trans right.merges.symm, ?_⟩
  exact {
    agree := twins.agree
    mode := twins.mode
    samples := rfl
    processed := congrArg (· + 1) twins.processed
    hypothesis := right.hypothesis.trans left.hypothesis.symm
    states := right.states.trans left.states.symm
    drawn := by rwa [left.random, right.random] }

/-- Runs at the same point take a step alike. -/
theorem Twin.step :
    SameOutcome (fun (_, step, after) (_, repeated, next) => step = repeated ∧
      Twin random other deterministic after next) inPlace.step again.step := by
  -- Only learning looks at the flags or at the random words; matching is the same for both.
  rw [InPlaceSession.step, InPlaceSession.step, twins.samples, twins.processed, twins.hypothesis]
  cases inPlace.samples.positives.drop inPlace.processed with
  | nil => exact .ok ⟨rfl, twins⟩
  | cons sample remaining =>
    refine (SameOutcome.refl (inPlace.work.hypothesis.isMatch sample)).bind
      fun accepted _ _ same => ?_
    subst same
    cases accepted with
    | true => exact .ok ⟨rfl, { twins with processed := rfl, samples := rfl }⟩
    | false =>
      refine (twins.learn words sample remaining).bind fun result repeated _ same => ?_
      exact .ok ⟨congrArg (some <| Step.mk inPlace.processed true ·) same.1, same.2⟩

/-- Runs at the same point take any number of steps alike. -/
theorem Twin.run (count : Nat) :
    SameOutcome (SameSteps random other deterministic) (inPlace.run count) (again.run count) := by
  -- The twins stay twins after each step, so the next starts from equal automata.
  induction count generalizing inPlace again with
  | zero => exact .ok ⟨rfl, twins⟩
  | succ count ih =>
    refine (twins.step words).bind fun result repeated _ same => ?_
    obtain ⟨told, step, after⟩ := result
    obtain ⟨_, _, next⟩ := repeated
    obtain ⟨rfl, later⟩ := same
    refine (ih later).bind fun ran again _ same => ?_
    exact .ok ⟨congrArg (step :: ·) same.1, same.2⟩

end Twin

end InPlaceSession

namespace Session

variable {source twin : Type}

/-- A session in place, with two automata to try merges in that are as they are at the start. -/
def inPlace (session : Session source) : InPlaceSession source where
  settings := session.settings
  samples := session.samples
  processed := session.processed
  work := session.searchState session.hypothesis session.hypothesis

/-- In place, the same session goes on. -/
theorem session_inPlace (session : Session source) : session.inPlace.session = session := by
  cases session
  simp [inPlace, searchState, InPlaceSession.session]

variable [WordSource source] [WordSource twin]

/-- Runs on the same samples start at the same point, or are refused for the same reason. -/
theorem start_twin {settings others : Settings} (agree : others.Agree settings) (samples : SampleSet)
    (random : source) (other : twin) :
    SameOutcome
      (fun session again => session.inPlace.Twin random other settings.deterministic again.inPlace)
      (start settings samples random) (start others samples other) := by
  -- Neither the conflict nor the first allocation depends on the settings.
  rw [start_eq, start_eq, ofSorted, ofSorted, unlessConflicting, unlessConflicting]
  cases samples.sort.conflict? with
  | some sample => exact .error _
  | none =>
    cases Automaton.ofAlphabet samples.sort.alphabetSize with
    | error fault => exact .error _
    | ok hypothesis => exact .ok ⟨agree, rfl, rfl, rfl, rfl, rfl, 0, rfl, rfl, fun _ => rfl⟩

end Session

/--
What is told of a run has no influence on it, and neither has its source if there is no random order.

Both runs are told in place, where the flags are looked at, and there they take the same steps.
-/
theorem run_of_agree {source twin : Type} [WordSource source] [WordSource twin]
    {settings others : Settings} (agree : others.Agree settings) (samples : SampleSet)
    {random : source} {other : twin} (words : SameWords random other ∨ settings.deterministic) :
    SameOutcome
      (fun session again => ∀ count,
        session.inPlace.Conducts session count ∧ again.inPlace.Conducts again count ∧
          SameOutcome (InPlaceSession.SameSteps random other settings.deterministic)
            (session.inPlace.run count) (again.inPlace.run count))
      (Session.start settings samples random) (Session.start others samples other) := by
  -- Each session conducts its in-place twin, and the twins take the same steps.
  refine (Session.start_twin agree samples random other).imp fun session again twins count => ?_
  have conducts := session.inPlace.conducts count
  have conductsAgain := again.inPlace.conducts count
  rw [Session.session_inPlace] at conducts conductsAgain
  exact ⟨conducts, conductsAgain, twins.run words count⟩

/-- Settings in which everything is told and new states are examined in the order of their path. -/
def tellingAll : Settings where
  showProgress := true
  showMerges := true
  showPossibleMerges := true
  deterministic := true

/-- Whether everything is told or nothing, the steps on these samples are the same with any words. -/
theorem run_of_agree_square : ∃ session again result repeated,
    Session.start tellingAll sampleSquare (WordCycle.ofList [7]) = .ok session ∧
      Session.start { deterministic := true } sampleSquare (WordCycle.ofList [3, 1]) = .ok again ∧
      session.inPlace.run 2 = .ok result ∧ again.inPlace.run 2 = .ok repeated ∧
      InPlaceSession.SameSteps (WordCycle.ofList [7]) (WordCycle.ofList [3, 1]) true result repeated := by
  -- Both are deterministic, so even different random words give the same run.
  have agree : Settings.Agree { deterministic := true } tellingAll := ⟨rfl, rfl⟩
  have words : SameWords (WordCycle.ofList [7]) (WordCycle.ofList [3, 1]) ∨
      tellingAll.deterministic := .inr rfl
  obtain ⟨session, again, started, startedAgain, alike⟩ :=
    (run_of_agree agree sampleSquare words).exists_of_isOk (by rw [start_square]; rfl)
  obtain ⟨conducts, _, steps⟩ := alike 2
  have completes : (session.runSteps 2).isOk := by
    rw [start_square] at started
    cases started
    decide +kernel
  obtain ⟨_, result, _, ran, _⟩ := conducts.told.exists_of_isOk completes
  rw [ran] at steps
  obtain ⟨repeated, repeats, same⟩ := steps.exists_of_ok_left
  exact ⟨session, again, result, repeated, started, startedAgain, ran, repeats, same⟩

end Training

end NfaInduction
