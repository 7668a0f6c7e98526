import NfaInduction.Proofs.Sample.Conflict
import NfaInduction.Proofs.Training.Coerce
import NfaInduction.Proofs.Training.Settle
import NfaInduction.Proofs.Training.Start

/-! Every step that completes adds one sample to those accepted and keeps what earlier steps achieved. -/

namespace NfaInduction

namespace Training

open Automaton (Outgrown)

variable {source : Type}

/-- After some steps, as many positive samples are accepted, and all states have been examined. -/
structure Session.Learnt (session : Session source) (count : Nat) (plain : PlainAutomaton) : Prop where
  /-- The hypothesis stands for the plain automaton. -/
  represents : session.hypothesis.Represents plain
  /-- It is an automaton over the alphabet of the samples. -/
  alphabet : plain.alphabetSize = session.samples.alphabetSize
  /-- No two states can be merged safely, and negative samples are rejected. -/
  examined : Examined session.samples.negatives plain session.states.toList []
  /-- Each step processes a sample as long as there is one. -/
  processed : session.processed = min count session.samples.positives.length
  /-- Processed samples are accepted. -/
  accepts : ∀ sample ∈ session.samples.positives.take count, plain.Accepts sample
  /-- Nothing is there that does not go back to a processed sample. -/
  grown : plain.GrownFrom (session.samples.positives.take count)
  /-- No sample is labeled both ways. -/
  disjoint : ∀ sample ∈ session.samples.positives, sample ∉ session.samples.negatives

/-- A fresh path leaves all earlier states examined and its own states waiting. -/
theorem Examined.gains {negatives : List Sample} {before after : PlainAutomaton}
    {sample : Sample} {states fresh : List Nat} (examined : Examined negatives before states [])
    (gains : before.Gains after sample fresh) (positive : sample ∉ negatives) :
    Examined negatives after states fresh where
  nodup := by
    refine List.nodup_append'.2 ⟨by simpa using examined.nodup, gains.nodup, fun state old new => ?_⟩
    exact gains.unused state new ((examined.active state).2 (by simpa using old))
  active state := by
    rw [gains.active, examined.active, List.append_nil, List.mem_append]
  irreducible left leftIn right rightIn distinct :=
    (examined.irreducible left leftIn right rightIn distinct).mono gains.partOf
  rejects negative member accepts := by
    -- The only new word of the language is the sample.
    rcases (gains.accepts negative).1 accepts with old | rfl
    · exact examined.rejects negative member old
    · exact positive member

namespace Session

variable {session : Session source}

/-- The samples still to be processed are those behind the processed ones. -/
theorem Learnt.drop_eq {count : Nat} {plain : PlainAutomaton} (learnt : session.Learnt count plain)
    {sample : Sample} {remaining : List Sample}
    (next : session.samples.positives.drop session.processed = sample :: remaining) :
    session.processed = count ∧ count < session.samples.positives.length ∧
      session.samples.positives.take (count + 1) =
        session.samples.positives.take count ++ [sample] := by
  -- There is a next sample, so that all before it are processed.
  have processed := learnt.processed
  have present : session.processed < session.samples.positives.length := by
    have lengths := congrArg List.length next
    simp only [List.length_drop, List.length_cons] at lengths
    omega
  have same : session.processed = count := by omega
  rw [same] at next present
  rw [List.drop_eq_getElem_cons present] at next
  obtain ⟨rfl, _⟩ := List.cons.inj next
  exact ⟨same, present, List.take_succ_eq_append_getElem present⟩

/-- Once another sample is accepted, one more sample has been processed. -/
theorem Learnt.next {count : Nat} {before plain : PlainAutomaton} {after : Session source}
    (learnt : session.Learnt count before) {sample : Sample} {remaining : List Sample}
    (next : session.samples.positives.drop session.processed = sample :: remaining)
    (samples : after.samples = session.samples) (processed : after.processed = session.processed + 1)
    (represents : after.hypothesis.Represents plain)
    (alphabet : plain.alphabetSize = before.alphabetSize)
    (examined : Examined after.samples.negatives plain after.states.toList [])
    (grows : ∀ word, before.Accepts word → plain.Accepts word) (accepted : plain.Accepts sample)
    (grown : plain.GrownFrom (session.samples.positives.take count ++ [sample])) :
    after.Learnt (count + 1) plain := by
  -- The samples taken so far are one more, and it is accepted.
  obtain ⟨same, present, taken⟩ := learnt.drop_eq next
  constructor
  case represents => exact represents
  case alphabet => rw [alphabet, samples, learnt.alphabet]
  case examined => exact examined
  case processed =>
    rw [processed, samples]
    omega
  case accepts =>
    rw [samples, taken]
    intro word member
    rcases List.mem_append.1 member with old | new
    · exact grows word (learnt.accepts word old)
    · rwa [List.mem_singleton.1 new]
  case grown => rwa [samples, taken]
  case disjoint => rw [samples]; exact learnt.disjoint

/-- All samples keep to the alphabet of the automaton. -/
theorem Learnt.within {count : Nat} {plain : PlainAutomaton} (learnt : session.Learnt count plain) :
    (∀ sample ∈ session.samples.positives, sample.Within plain.alphabetSize) ∧
      ∀ sample ∈ session.samples.negatives, sample.Within plain.alphabetSize := by
  rw [learnt.alphabet]
  exact ⟨session.samples.positives_within, session.samples.negatives_within⟩

/-- There is no room for the path of the next sample. -/
def Stuck (session : Session source) (fault : Fault) : Prop :=
  ∃ sample remaining, session.samples.positives.drop session.processed = sample :: remaining ∧
    coerce session.hypothesis sample = .error fault

/-- The next step processes a sample and leads to what is said, unless an automaton outgrew its limits. -/
def Proceeds [WordSource source] (session : Session source)
    (leads : StepReport → Session source → Prop) : Prop :=
  (∃ report after, session.step = .ok (some report, after) ∧ leads report after) ∨
    ∃ fault, session.step = .error fault ∧ Outgrown session.samples.alphabetSize fault

/-- A session gets stuck only if an automaton outgrows its limits. -/
theorem Learnt.outgrown {count : Nat} {plain : PlainAutomaton} (learnt : session.Learnt count plain)
    {fault : Fault} (stuck : session.Stuck fault) :
    Outgrown session.samples.alphabetSize fault := by
  obtain ⟨sample, remaining, next, failed⟩ := stuck
  -- The symbols of a positive sample are in the alphabet, and so it is the states that are too many.
  have member : sample ∈ session.samples.positives :=
    List.mem_of_mem_drop (next ▸ List.mem_cons_self)
  rcases coerce_spells learnt.represents (learnt.within.1 sample member) with
    ⟨path, after, done, _⟩ | ⟨other, again, outgrown⟩
  · cases failed.symm.trans done
  · cases failed.symm.trans again
    exact learnt.alphabet ▸ outgrown

/-- A sample still to be processed is positive, and so are those behind it. -/
theorem Learnt.next_positive {count : Nat} {plain : PlainAutomaton}
    (learnt : session.Learnt count plain) {sample : Sample} {remaining : List Sample}
    (next : session.samples.positives.drop session.processed = sample :: remaining) :
    sample ∈ session.samples.positives ∧ sample.Within plain.alphabetSize ∧
      ∀ other ∈ remaining, other.Within plain.alphabetSize := by
  -- The samples that are left are some of the sorted ones.
  have left : ∀ other ∈ sample :: remaining, other ∈ session.samples.positives := by
    rw [← next]
    exact fun other => List.mem_of_mem_drop
  have first := left sample List.mem_cons_self
  exact ⟨first, learnt.within.1 sample first, fun other member =>
    learnt.within.1 other (left other (List.mem_cons_of_mem _ member))⟩

section Start

variable {samples : SampleSet}
  (disjoint : ∀ sample ∈ samples.positives, sample ∉ samples.negatives) (settings : Settings)
  (random : source)
include disjoint

/-- Sorting leaves no sample labeled both ways if there was none before. -/
theorem disjoint_sort : ∀ sample ∈ samples.sort.positives, sample ∉ samples.sort.negatives := by
  -- Sorting leaves the members of both lists.
  intro sample positive negative
  exact disjoint sample (SampleSet.mem_positives_sort.1 positive)
    (SampleSet.mem_negatives_sort.1 negative)

/-- A run on samples without a conflict starts with an automaton over their alphabet, if there is one. -/
theorem start_of_disjoint : start settings samples random =
    match Automaton.ofAlphabet samples.alphabetSize with
    | .ok hypothesis => .ok ⟨settings, samples.sort, 0, hypothesis, #[], random⟩
    | .error fault => .error (.fault fault) := by
  rw [start_eq]
  exact ofSorted_of_none (SampleSet.conflict?_eq_none (disjoint_sort disjoint)) settings random

/-- A run on samples without a conflict starts with nothing learnt, unless the alphabet is too large. -/
theorem start_learnt :
    (∃ session : Session source, start settings samples random = .ok session ∧
      session.samples = samples.sort ∧ session.Learnt 0 (.empty samples.alphabetSize)) ∨
    ∃ fault, start settings samples random = .error (.fault fault) ∧
      Outgrown samples.alphabetSize fault := by
  -- A session starts with nothing learnt, unless the first matrix cannot be counted.
  rw [start_of_disjoint disjoint]
  cases built : Automaton.ofAlphabet samples.alphabetSize with
  | ok hypothesis =>
    refine .inl ⟨_, rfl, rfl, ?_⟩
    exact {
      represents := Automaton.represents_ofAlphabet built
      alphabet := rfl
      examined := {
        nodup := .nil
        active := by simp
        irreducible := by simp
        rejects := by simp [PlainAutomaton.Accepts] }
      processed := (Nat.zero_min _).symm
      accepts := by simp
      grown := PlainAutomaton.grownFrom_empty samples.alphabetSize
      disjoint := disjoint_sort disjoint }
  | error fault =>
    rw [Automaton.ofAlphabet, TransitionMatrix.ofCapacity] at built
    split at built <;> cases built
    rename_i excessive
    exact .inr ⟨_, rfl, 0, .matrix Capacity.reached_block.bounds.2 excessive⟩

end Start

variable [WordSource source]

/-- New states are examined each once, in whatever order. -/
theorem arrange_perm (session : Session source) (states : List Nat) :
    (session.arrange states).1.Perm states := by
  -- The states stay in order or are shuffled.
  rw [arrange]
  split
  · exact .refl states
  · exact WordSource.shuffle_perm states session.random

/-- What a session reports once the states of a path for its next sample have been settled. -/
def pathReport (session : Session source) (settlement : Settlement) : StepReport :=
  ⟨⟨session.processed, true, settlement.examinations.countP (·.absorbedBy.isSome)⟩,
    settlement.examinations⟩

/-- A session once the states of a path for its next sample have been settled. -/
def afterPath (session : Session source) (path : Path) (settlement : Settlement) : Session source :=
  { session with
    processed := session.processed + 1
    hypothesis := settlement.hypothesis
    states := settlement.states
    random := (session.arrange path.states).2 }

section Equations

variable (session : Session source) {sample : Sample} {remaining : List Sample} {path : Path}
  {settlement : Settlement} {fault : Fault}
  (next : session.samples.positives.drop session.processed = sample :: remaining)
include next

/-- Nothing is learnt from a sample that is accepted already. -/
theorem step_of_accepted (accepted : session.hypothesis.isMatch sample = .ok true) :
    session.step = .ok (some ⟨⟨session.processed, false, 0⟩, []⟩,
      { session with processed := session.processed + 1 }) := by
  rw [Session.step, next]
  exact bind_of_ok accepted

/-- A rejected sample is learnt by settling the states of its path. -/
theorem step_of_settled (rejected : session.hypothesis.isMatch sample = .ok false)
    (coerced : coerce session.hypothesis sample = .ok path)
    (settled : settle session.settings session.samples.negatives remaining path.automaton
      session.states (session.arrange path.states).1 = .ok settlement) :
    session.step = .ok (some (session.pathReport settlement), session.afterPath path settlement) := by
  -- The next sample is rejected, so that a path is added and settled.
  have learnt : session.learn sample remaining =
      .ok (session.pathReport settlement, session.afterPath path settlement) := by
    rw [Session.learn, bind_of_ok coerced]
    exact bind_of_ok settled
  rw [Session.step, next]
  exact (bind_of_ok rejected).trans ((if_neg Bool.false_ne_true).trans (bind_of_ok learnt))

/-- A rejected sample is not learnt if there is no room for its path. -/
theorem step_of_stuck (rejected : session.hypothesis.isMatch sample = .ok false)
    (failed : coerce session.hypothesis sample = .error fault) : session.step = .error fault := by
  -- The next sample is rejected, and its path cannot be added.
  have stuck : session.learn sample remaining = .error fault := by
    rw [Session.learn, bind_of_error failed]
  rw [Session.step, next]
  exact (bind_of_ok rejected).trans ((if_neg Bool.false_ne_true).trans (bind_of_error stuck))

end Equations

/-- What the step for the next sample comes to. -/
inductive Advances (session : Session source) (plain : PlainAutomaton) (sample : Sample)
    (remaining : List Sample) : Except Fault (Option StepReport × Session source) → Prop where
  /-- The sample is accepted already, and nothing but the number of processed samples changes. -/
  | known (accepted : plain.Accepts sample) : Advances session plain sample remaining
      (.ok (some ⟨⟨session.processed, false, 0⟩, []⟩,
        { session with processed := session.processed + 1 }))
  /-- A path is added for the sample, and each of its states is settled. -/
  | learnt {path : Path} {grown : PlainAutomaton} {settlement : Settlement}
      (rejected : ¬plain.Accepts sample)
      (coerced : coerce session.hypothesis sample = .ok path)
      (represents : path.automaton.Represents grown)
      (spells : plain.Spells grown sample path.states)
      (settled : settle session.settings session.samples.negatives remaining path.automaton
        session.states (session.arrange path.states).1 = .ok settlement)
      (sound : (⟨settlement.hypothesis, settlement.states, []⟩ : SettleState).Sound
        session.samples.negatives (settlement.examinations.foldl mergedBy grown)) :
      Advances session plain sample remaining
        (.ok (some (session.pathReport settlement), session.afterPath path settlement))
  /-- There is no room for a path. -/
  | stuck {fault : Fault} (rejected : ¬plain.Accepts sample)
      (failed : coerce session.hypothesis sample = .error fault) :
      Advances session plain sample remaining (.error fault)

section Next

variable {count : Nat} {plain : PlainAutomaton}
  (learnt : session.Learnt count plain) {sample : Sample} {remaining : List Sample}
  (next : session.samples.positives.drop session.processed = sample :: remaining)
include learnt next

/-- The settlement of the path of the next sample starts out sound. -/
theorem Learnt.settling {path : Path} (coerced : coerce session.hypothesis sample = .ok path) :
    ∃ grown, plain.Spells grown sample path.states ∧
      (session.settling path).Sound session.samples.negatives grown := by
  -- The states of the path wait in any order, and all negatives are still rejected.
  obtain ⟨positive, within, _⟩ := learnt.next_positive next
  rcases coerce_spells learnt.represents within with
    ⟨_, grown, again, represents, spells⟩ | ⟨fault, failed, _⟩
  · cases coerced.symm.trans again
    have waiting := learnt.examined.gains spells.toGains (learnt.disjoint sample positive)
    exact ⟨grown, spells, represents, waiting.perm (session.arrange_perm path.states)⟩
  · cases coerced.symm.trans failed

/-- The states of a path for the next sample can be settled, and the settlement stays sound. -/
theorem Learnt.settles {path : Path} (coerced : coerce session.hypothesis sample = .ok path) :
    ∃ grown settlement, path.automaton.Represents grown ∧ plain.Spells grown sample path.states ∧
      settle session.settings session.samples.negatives remaining path.automaton session.states
        (session.arrange path.states).1 = .ok settlement ∧
      (⟨settlement.hypothesis, settlement.states, []⟩ : SettleState).Sound session.samples.negatives
        (settlement.examinations.foldl mergedBy grown) := by
  -- Settling a sound state of affairs has no fault.
  obtain ⟨_, _, remainingWithin⟩ := learnt.next_positive next
  obtain ⟨grown, spells, sound⟩ := learnt.settling next coerced
  have alphabet := spells.alphabet
  obtain ⟨settlement, settled, after⟩ := sound.settle (alphabet ▸ learnt.within.2)
    (alphabet ▸ remainingWithin) session.settings
  exact ⟨grown, settlement, sound.represents, spells, settled, after⟩

/-- A step accepts its sample already, or learns it by a path, or finds no room for one. -/
theorem Learnt.advances : session.Advances plain sample remaining session.step := by
  -- The next sample is accepted already, or its path is added, or there is no room for it.
  obtain ⟨_, within, _⟩ := learnt.next_positive next
  by_cases accepted : plain.Accepts sample
  · rw [session.step_of_accepted next ((learnt.represents.isMatch_eq_true within).2 accepted)]
    exact .known accepted
  · have rejected := (learnt.represents.isMatch_eq_false within).2 accepted
    cases coerced : coerce session.hypothesis sample with
    | ok path =>
      obtain ⟨grown, settlement, represents, spells, settled, sound⟩ := learnt.settles next coerced
      rw [session.step_of_settled next rejected coerced settled]
      exact .learnt accepted coerced represents spells settled sound
    | error fault =>
      rw [session.step_of_stuck next rejected coerced]
      exact .stuck accepted coerced

end Next

/-- A step completes and processes the next sample, unless there is no room for its path. -/
theorem Learnt.step {count : Nat} {plain : PlainAutomaton} (learnt : session.Learnt count plain) :
    (∃ report after later, session.step = .ok (report, after) ∧
      after.samples = session.samples ∧ after.Learnt (count + 1) later) ∨
    ∃ fault, session.step = .error fault ∧ session.Stuck fault := by
  cases next : session.samples.positives.drop session.processed with
  | nil =>
    -- All samples are processed, and they stay accepted.
    have processed := learnt.processed
    have all : session.samples.positives.length ≤ count := by
      have lengths := List.drop_eq_nil_iff.1 next
      omega
    have same : session.samples.positives.take (count + 1) = session.samples.positives.take count := by
      rw [List.take_of_length_le all, List.take_of_length_le (by omega)]
    refine .inl ⟨none, session, plain, by rw [Session.step, next], rfl, { learnt with
      processed := by omega
      accepts := by rw [same]; exact learnt.accepts
      grown := by rw [same]; exact learnt.grown }⟩
  | cons sample remaining =>
    have advances := learnt.advances next
    generalize session.step = outcome at advances ⊢
    cases advances with
    | known accepted =>
      refine .inl ⟨_, _, plain, rfl, rfl, ?_⟩
      exact learnt.next next rfl rfl learnt.represents rfl learnt.examined (fun _ => id) accepted
        (learnt.grown.append [sample])
    | learnt rejected coerced represents spells settled sound =>
      rename_i path grown settlement
      obtain ⟨change, renamed⟩ := exists_foldl_mergedBy settlement.examinations grown
      rw [renamed] at sound
      refine .inl ⟨_, _, grown.rename change, rfl, rfl, ?_⟩
      refine learnt.next next rfl rfl sound.represents spells.alphabet sound.examined ?_ ?_ ?_
      · -- The path keeps all words, and merges do so too.
        exact fun word accepts => ((spells.accepts word).2 (.inl accepts)).rename change
      · exact ((spells.accepts sample).2 (.inr rfl)).rename change
      · exact (spells.grownFrom learnt.grown).rename change
    | stuck rejected failed => exact .inr ⟨_, rfl, sample, remaining, next, failed⟩

/-- What each step hands on holds after any number of steps, unless one of them fails. -/
theorem runSteps_induction {holds : Nat → Session source → Prop} {fails : Fault → Prop}
    (step : ∀ count (session : Session source), holds count session →
      (∃ report after, session.step = .ok (report, after) ∧ holds (count + 1) after) ∨
      ∃ fault, session.step = .error fault ∧ fails fault)
    {base : Nat} (before : holds base session) (count : Nat) :
    (∃ events after, session.runSteps count = .ok (events, after) ∧ holds (base + count) after) ∨
    ∃ fault, session.runSteps count = .error fault ∧ fails fault := by
  -- The induction takes the steps in their order.
  induction count generalizing session base with
  | zero => exact .inl ⟨[], session, rfl, before⟩
  | succ count ih =>
    rw [Session.runSteps]
    rcases step base session before with ⟨report, middle, done, kept⟩ | ⟨fault, failed, fails⟩
    · rw [bind_of_ok done]
      rcases ih kept with ⟨events, after, run, result⟩ | ⟨fault, failed, fails⟩
      · refine .inl ⟨_, after, bind_of_ok run, ?_⟩
        rwa [Nat.add_assoc, Nat.add_comm 1 count] at result
      · exact .inr ⟨fault, bind_of_error failed, fails⟩
    · exact .inr ⟨fault, bind_of_error failed, fails⟩

/-- What steps keep besides what they learn holds after any number of them, unless there is no room. -/
theorem Learnt.runSteps_keep {keeps : Session source → Prop} {base : Nat} {plain : PlainAutomaton}
    (learnt : session.Learnt base plain) (kept : keeps session)
    (step : ∀ count (middle : Session source) later report after, middle.Learnt count later →
      middle.step = .ok (report, after) → keeps middle → keeps after) (count : Nat) :
    (∃ events after, session.runSteps count = .ok (events, after) ∧
      after.samples = session.samples ∧ (∃ later, after.Learnt (base + count) later) ∧ keeps after) ∨
    ∃ fault, session.runSteps count = .error fault ∧
      Outgrown session.samples.alphabetSize fault := by
  -- The property is carried along with what was learnt, step by step.
  let holds (count : Nat) (after : Session source) : Prop :=
    after.samples = session.samples ∧ (∃ later, after.Learnt count later) ∧ keeps after
  have start : holds base session := ⟨rfl, ⟨plain, learnt⟩, kept⟩
  refine runSteps_induction (fun count middle held => ?_) start count
  obtain ⟨same, ⟨later, learnt⟩, kept⟩ := held
  rcases learnt.step with ⟨report, after, next, done, samples, result⟩ | ⟨fault, failed, stuck⟩
  · exact .inl ⟨report, after, done, samples.trans same, ⟨next, result⟩,
      step count middle later report after learnt done kept⟩
  · exact .inr ⟨fault, failed, same ▸ learnt.outgrown stuck⟩

/-- Steps complete and process one sample each, unless there is no room for one of them. -/
theorem Learnt.runSteps {base : Nat} {plain : PlainAutomaton} (learnt : session.Learnt base plain)
    (count : Nat) :
    (∃ events after, session.runSteps count = .ok (events, after) ∧
      after.samples = session.samples ∧ ∃ later, after.Learnt (base + count) later) ∨
    ∃ fault, session.runSteps count = .error fault ∧
      Outgrown session.samples.alphabetSize fault := by
  -- There is no further property to keep.
  have keeps : ∀ count (middle : Session source) later report after, middle.Learnt count later →
      middle.step = .ok (report, after) → True → True := fun _ _ _ _ _ _ _ => id
  rcases learnt.runSteps_keep trivial keeps count with ⟨events, after, run, same, later, _⟩ | failed
  · exact .inl ⟨events, after, run, same, later⟩
  · exact .inr failed

end Session

end Training

end NfaInduction
