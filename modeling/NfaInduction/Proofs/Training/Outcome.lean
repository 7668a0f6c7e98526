import NfaInduction.Proofs.Sample.Order
import NfaInduction.Proofs.Training.Steps
import NfaInduction.Random.WordCycle

/-! A trained automaton separates the samples, and no two of its states can be merged any more. -/

namespace NfaInduction

namespace Automaton

/-- Some words are accepted and others are rejected. -/
structure Separates (automaton : Automaton) (positives negatives : List Sample) : Prop where
  /-- Positive samples are accepted. -/
  accepts : ∀ sample ∈ positives, automaton.isMatch sample = .ok true
  /-- Negative samples are rejected. -/
  rejects : ∀ sample ∈ negatives, automaton.isMatch sample = .ok false

/-- No two states can be merged without a negative sample being accepted. -/
structure Irreducible (automaton : Automaton) (negatives : List Sample) : Prop where
  /-- Whichever of two states absorbs the other, a negative sample is accepted afterwards. -/
  merge_accepts : ∀ kept absorbed, automaton.isActive kept → automaton.isActive absorbed →
    kept ≠ absorbed → ∃ merged, automaton.merge kept absorbed = .done merged ∧
      ∃ negative ∈ negatives, merged.isMatch negative = .ok true
  /-- Without negative samples there is at most one state. -/
  stateCount_le : negatives = [] → automaton.stateCount ≤ 1

/-- It does not matter how the negative samples are listed. -/
theorem Irreducible.of_mem_iff {automaton : Automaton} {listed negatives : List Sample}
    (irreducible : automaton.Irreducible listed) (same : ∀ sample, sample ∈ listed ↔ sample ∈ negatives) :
    automaton.Irreducible negatives where
  -- Only the members of the lists are looked at.
  merge_accepts kept absorbed keptActive absorbedActive distinct := by
    obtain ⟨merged, done, negative, member, accepts⟩ :=
      irreducible.merge_accepts kept absorbed keptActive absorbedActive distinct
    exact ⟨merged, done, negative, (same negative).1 member, accepts⟩
  stateCount_le none := by
    refine irreducible.stateCount_le (List.eq_nil_iff_forall_not_mem.2 fun sample member => ?_)
    rw [same, none] at member
    exact List.not_mem_nil member

end Automaton

namespace Training

open Automaton (Outgrown)

variable {source : Type}

/-- A run ends in a session with a property, unless an automaton over the alphabet outgrew its limits. -/
def Completes (alphabetSize : Nat) (holds : Session source → Prop) :
    Except Failure (List Event × Session source) → Prop
  | .ok (_, session) => holds session
  | .error (.fault fault) => Outgrown alphabetSize fault
  | .error (.error _) => False

/-- A run that ends in a session with a property ends in one with whatever follows from it. -/
theorem Completes.imp {alphabetSize : Nat} {holds follows : Session source → Prop}
    {outcome : Except Failure (List Event × Session source)}
    (completes : Completes alphabetSize holds outcome)
    (implies : ∀ session, holds session → follows session) :
    Completes alphabetSize follows outcome := by
  -- There are two ways to complete, and only the first one has a session.
  match outcome, completes with
  | .ok (_, session), held => exact implies session held
  | .error (.fault _), outgrown => exact outgrown

/-- A run that ends in a session with a property ends in one with what follows from that and the run. -/
theorem Completes.imp_of_eq {alphabetSize : Nat} {holds follows : Session source → Prop}
    {outcome : Except Failure (List Event × Session source)}
    (completes : Completes alphabetSize holds outcome)
    (implies : ∀ events session, outcome = .ok (events, session) → holds session → follows session) :
    Completes alphabetSize follows outcome := by
  -- There are two ways to complete, and only the first one has a session.
  match outcome, completes with
  | .ok (events, session), held => exact implies events session rfl held
  | .error (.fault _), outgrown => exact outgrown

/-- A run that is seen to complete ends in a session with the property. -/
theorem Completes.exists_of_isSome {alphabetSize : Nat} {holds : Session source → Prop}
    {outcome : Except Failure (List Event × Session source)}
    (completes : Completes alphabetSize holds outcome) (completed : outcome.toOption.isSome) :
    ∃ events session, outcome = .ok (events, session) ∧ holds session := by
  -- An outcome that is there is no fault.
  match outcome, completes with
  | .ok (events, session), held => exact ⟨events, session, rfl, held⟩
  | .error _, _ => cases completed

namespace Session

variable {session : Session source} {count : Nat} {plain : PlainAutomaton}

/-- What has been learnt separates the samples processed so far from the negative ones. -/
theorem Learnt.separates (learnt : session.Learnt count plain) :
    session.hypothesis.Separates (session.samples.positives.take count)
      session.samples.negatives where
  -- The samples are words of the alphabet, so that the verdicts are those of the plain automaton.
  accepts sample member := by
    have within := session.samples.positives_within sample (List.mem_of_mem_take member)
    exact (learnt.represents.isMatch_eq_true (learnt.alphabet ▸ within)).2
      (learnt.accepts sample member)
  rejects sample member := by
    have within := session.samples.negatives_within sample member
    exact (learnt.represents.isMatch_eq_false (learnt.alphabet ▸ within)).2
      (learnt.examined.rejects sample member)

/-- What has been learnt cannot be made smaller by a merge. -/
theorem Learnt.irreducible (learnt : session.Learnt count plain) :
    session.hypothesis.Irreducible session.samples.negatives := by
  -- All active states were examined, and none is waiting any more.
  have represents := learnt.represents
  have listed : ∀ state, state ∈ plain.active ↔ state ∈ session.states.toList := by
    intro state
    rw [learnt.examined.active, List.append_nil]
  constructor
  case merge_accepts =>
    intro kept absorbed keptActive absorbedActive distinct
    have keptIn := (represents.active kept).1 keptActive
    have absorbedIn := (represents.active absorbed).1 absorbedActive
    obtain ⟨negative, member, accepts⟩ := learnt.examined.irreducible kept
      ((listed kept).1 keptIn) absorbed ((listed absorbed).1 absorbedIn) distinct
    obtain ⟨merged, done, result⟩ := represents.merge_eq_done keptIn absorbedIn distinct
    have within := session.samples.negatives_within negative member
    exact ⟨merged, done, negative, member,
      (result.isMatch_eq_true (learnt.alphabet ▸ within)).2 accepts⟩
  case stateCount_le =>
    intro none
    rw [represents.reports.stateCount, Finset.card_le_one]
    -- Two states would make a merge unsafe, for want of a negative sample that shows it.
    intro left leftIn right rightIn
    by_contra distinct
    obtain ⟨negative, member, _⟩ := learnt.examined.irreducible left ((listed left).1 leftIn)
      right ((listed right).1 rightIn) distinct
    rw [none] at member
    exact List.not_mem_nil member

end Session

variable [WordSource source]

/-- A run from its start on, after some of its steps. -/
def afterSteps (settings : Settings) (samples : SampleSet) (random : source) (count : Nat) :
    Except Failure (List Event × Session source) := do
  let session ← Session.start settings samples random
  match session.runSteps count with
  | .ok result => return result
  | .error fault => .error (.fault fault)

/-- The steps after which a run is seen were taken from its start. -/
theorem afterSteps_eq_ok {settings : Settings} {samples : SampleSet} {random : source} {count : Nat}
    {result : List Event × Session source} :
    afterSteps settings samples random count = .ok result ↔ ∃ first : Session source,
      Session.start settings samples random = .ok first ∧ first.runSteps count = .ok result := by
  -- The session is started before its steps are taken.
  rw [afterSteps, bind_eq_ok]
  refine exists_congr fun first => and_congr_right fun _ => ?_
  cases first.runSteps count with
  | ok found => simp [Pure.pure, Except.pure]
  | error fault => simp

section Run

variable {samples : SampleSet}
  (disjoint : ∀ sample ∈ samples.positives, sample ∉ samples.negatives) (settings : Settings)
  (random : source)
include disjoint

/-- Steps on samples without a conflict keep what they learn. -/
theorem afterSteps_learnt (count : Nat) :
    Completes samples.alphabetSize
      (fun session => session.samples = samples.sort ∧ ∃ plain, session.Learnt count plain)
      (afterSteps settings samples random count) := by
  -- The session starts with nothing learnt, and each step learns one sample.
  rw [afterSteps]
  rcases Session.start_learnt disjoint settings random with
    ⟨session, started, same, learnt⟩ | ⟨fault, failed, outgrown⟩
  · rw [started]
    rcases learnt.runSteps count with ⟨events, after, run, kept, later, result⟩ |
      ⟨fault, failed, outgrown⟩
    · rw [Nat.zero_add] at result
      simp only [Bind.bind, Except.bind, run]
      exact ⟨kept.trans same, later, result⟩
    · simp only [Bind.bind, Except.bind, failed]
      rw [same] at outgrown
      exact outgrown
  · rw [failed]
    exact outgrown

/-- Training takes as many steps as there are positive samples. -/
theorem train_learnt :
    Completes samples.alphabetSize
      (fun session => session.samples = samples.sort ∧
        ∃ plain, session.Learnt samples.positives.length plain)
      (train settings samples random) := by
  -- Training takes as many steps as there are positive samples, and then tells of its end.
  have steps := afterSteps_learnt disjoint settings random samples.positives.length
  rw [afterSteps] at steps
  rw [train_eq]
  rcases Session.start_learnt disjoint settings random with
    ⟨session, started, same, _⟩ | ⟨fault, failed, outgrown⟩
  · have length : session.samples.positives.length = samples.positives.length := by
      rw [same]
      exact List.length_mergeSort _
    rw [started] at steps ⊢
    simp only [Bind.bind, Except.bind, Session.finish, length] at steps ⊢
    revert steps
    cases session.runSteps samples.positives.length with
    | ok result => exact id
    | error fault => exact id
  · rw [failed]
    exact outgrown

/-- Each step has one more of the sorted positive samples accepted, and no negative one ever. -/
theorem separates_run :
    (∀ count, Completes samples.alphabetSize
      (fun session =>
        session.hypothesis.Separates (samples.sort.positives.take count) samples.negatives)
      (afterSteps settings samples random count)) ∧
    Completes samples.alphabetSize
      (fun session => session.hypothesis.Separates samples.positives samples.negatives)
      (train settings samples random) := by
  constructor
  · intro count
    refine (afterSteps_learnt disjoint settings random count).imp fun session held => ?_
    obtain ⟨same, plain, learnt⟩ := held
    have separates := learnt.separates
    rw [same] at separates
    exact ⟨separates.accepts, fun sample member =>
      separates.rejects sample (SampleSet.mem_negatives_sort.2 member)⟩
  · refine (train_learnt disjoint settings random).imp fun session held => ?_
    obtain ⟨same, plain, learnt⟩ := held
    have separates := learnt.separates
    rw [same] at separates
    -- All sorted samples are processed in the end.
    have all : samples.sort.positives.take samples.positives.length = samples.sort.positives :=
      List.take_of_length_le (Nat.le_of_eq (List.length_mergeSort _))
    rw [all] at separates
    exact ⟨fun sample member => separates.accepts sample (SampleSet.mem_positives_sort.2 member),
      fun sample member => separates.rejects sample (SampleSet.mem_negatives_sort.2 member)⟩

end Run

/-- One positive and one negative sample over two symbols. -/
def samplePair : SampleSet where
  alphabetSize := 2
  positives := [[0, 1]]
  negatives := [[]]
  positives_within := within_of_all rfl
  negatives_within := within_of_all rfl

/-- The two samples are different. -/
theorem samplePair_disjoint : ∀ sample ∈ samplePair.positives, sample ∉ samplePair.negatives := by
  decide

/-- Training on these samples completes, and what it leads to tells them apart. -/
theorem separates_run_pair : ∃ events session,
    train {} samplePair (WordCycle.ofList [7]) = .ok (events, session) ∧
      session.hypothesis.Separates samplePair.positives samplePair.negatives := by
  have completes := (separates_run samplePair_disjoint {} (WordCycle.ofList [7])).2
  exact completes.exists_of_isSome (by decide +kernel)

/-- After any number of steps, no two states can be merged without a negative sample being accepted. -/
theorem irreducible_run {samples : SampleSet}
    (disjoint : ∀ sample ∈ samples.positives, sample ∉ samples.negatives) (settings : Settings)
    (random : source) :
    (∀ count, Completes samples.alphabetSize
      (fun session => session.hypothesis.Irreducible samples.negatives)
      (afterSteps settings samples random count)) ∧
    Completes samples.alphabetSize
      (fun session => session.hypothesis.Irreducible samples.negatives)
      (train settings samples random) := by
  -- Sorting keeps the negative samples.
  have sorted : ∀ session : Session source, (session.samples = samples.sort ∧
      ∃ count plain, session.Learnt count plain) →
      session.hypothesis.Irreducible samples.negatives := by
    rintro session ⟨same, count, plain, learnt⟩
    have irreducible := learnt.irreducible
    rw [same] at irreducible
    exact irreducible.of_mem_iff fun sample => SampleSet.mem_negatives_sort
  constructor
  · intro count
    exact (afterSteps_learnt disjoint settings random count).imp fun session held =>
      sorted session ⟨held.1, count, held.2⟩
  · exact (train_learnt disjoint settings random).imp fun session held =>
      sorted session ⟨held.1, _, held.2⟩

/-- Training on these samples completes, and what it leads to cannot be made smaller. -/
theorem irreducible_run_pair : ∃ events session,
    train {} samplePair (WordCycle.ofList [7]) = .ok (events, session) ∧
      session.hypothesis.Irreducible samplePair.negatives := by
  have completes := (irreducible_run samplePair_disjoint {} (WordCycle.ofList [7])).2
  exact completes.exists_of_isSome (by decide +kernel)

/-- Two positive samples and two negative ones over two symbols. -/
def sampleSquare : SampleSet where
  alphabetSize := 2
  positives := [[0, 1], [1]]
  negatives := [[], [0]]
  positives_within := within_of_all rfl
  negatives_within := within_of_all rfl

/-- No sample is labeled both ways. -/
theorem sampleSquare_disjoint : ∀ sample ∈ sampleSquare.positives, sample ∉ sampleSquare.negatives := by
  decide

/-- The same samples in ascending order. -/
def squareSorted : SampleSet where
  alphabetSize := 2
  positives := sampleSquare.positives.reverse
  negatives := sampleSquare.negatives
  positives_within sample member := sampleSquare.positives_within sample (List.mem_reverse.1 member)
  negatives_within := sampleSquare.negatives_within

omit [WordSource source] in
/-- A run on these samples starts with their sorted lists. -/
theorem start_square (settings : Settings) (random : source) :
    Session.start settings sampleSquare random =
      .ok ⟨settings, squareSorted, 0, .blank 2, #[], random⟩ := by
  -- The samples are sorted by hand, and the matrices of the alphabet are counted.
  have sorted : sampleSquare.sort = squareSorted :=
    SampleSet.sort_eq rfl (List.reverse_perm _).symm (.refl _) (by decide)
  rw [Session.start_of_disjoint sampleSquare_disjoint, sorted,
    Automaton.ofAlphabet_of_isSome (by decide +kernel)]
  rfl

/-- There is room for the paths of both positive samples. -/
theorem afterSteps_square_isSome : ∀ count ≤ 2,
    (afterSteps {} sampleSquare (WordCycle.ofList [7]) count).toOption.isSome := by
  -- There are three numbers of steps, each of which is computed.
  intro count few
  rw [afterSteps, start_square]
  revert count
  decide +kernel

/-- After the first step the longer one of the two is left. -/
theorem next_square : ∀ result ∈ (afterSteps {} sampleSquare (WordCycle.ofList [7]) 1).toOption,
    result.2.samples.positives.drop result.2.processed = [[0, 1]] := by
  rw [afterSteps, start_square]
  decide +kernel

end Training

end NfaInduction
