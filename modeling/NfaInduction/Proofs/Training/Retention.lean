import NfaInduction.Proofs.Training.Outcome

/-! The path for a sample adds this one word to the language, and no step loses a word. -/

namespace NfaInduction

namespace Training

open Automaton (Outgrown)

/-- Examinations that absorb no state leave the automaton as it is. -/
theorem foldl_mergedBy_of_countP_eq_zero {examinations : List Examination}
    (unmerged : examinations.countP (·.absorbedBy.isSome) = 0) (plain : PlainAutomaton) :
    examinations.foldl mergedBy plain = plain := by
  -- Without an absorbed state every examination leaves the automaton alone.
  rw [List.countP_eq_zero] at unmerged
  induction examinations with
  | nil => rfl
  | cons examination later ih =>
    obtain ⟨kept, others⟩ := List.forall_mem_cons.1 unmerged
    have same : mergedBy plain examination = plain := by
      rw [mergedBy, Option.not_isSome_iff_eq_none.1 kept]
    rw [List.foldl_cons, same]
    exact ih others

variable {source : Type}

namespace Session

variable [WordSource source]

/-- A sample is the one word that its path adds to the language, and the step for it loses no word. -/
structure Retains (session : Session source) (sample : Sample) : Prop where
  /-- The path of the sample adds the sample and nothing else, unless there is no room for it. -/
  path : (∃ path, coerce session.hypothesis sample = .ok path ∧
      path.automaton.language = insert sample session.hypothesis.language) ∨
    ∃ fault, coerce session.hypothesis sample = .error fault ∧
      Outgrown session.samples.alphabetSize fault
  /-- The step has the sample accepted and all words before it, and no others if nothing is merged. -/
  step : session.Proceeds fun report after =>
    insert sample session.hypothesis.language ⊆ after.hypothesis.language ∧
      (report.step.merges = 0 →
        after.hypothesis.language = insert sample session.hypothesis.language)

variable {session : Session source} {count : Nat} {plain : PlainAutomaton}
  (learnt : session.Learnt count plain)
include learnt

section Next

variable {sample : Sample} {remaining : List Sample}
  (next : session.samples.positives.drop session.processed = sample :: remaining)
include next

/-- The path for the next sample adds this sample and nothing else. -/
theorem Learnt.language_coerce {path : Path} (coerced : coerce session.hypothesis sample = .ok path) :
    path.automaton.language = insert sample session.hypothesis.language := by
  -- The grown path accepts the new sample and otherwise what was accepted before.
  obtain ⟨grown, spells, sound⟩ := learnt.settling next coerced
  ext word
  have represents : path.automaton.Represents grown := sound.represents
  rw [represents.mem_language, spells.accepts, Set.mem_insert_iff, learnt.represents.mem_language,
    or_comm]

/-- The step for the next sample adds it and loses no word. -/
theorem Learnt.retains : session.Retains sample where
  path := by
    cases coerced : coerce session.hypothesis sample with
    | ok path => exact .inl ⟨path, rfl, learnt.language_coerce next coerced⟩
    | error fault => exact .inr ⟨fault, rfl, learnt.outgrown ⟨sample, remaining, next, coerced⟩⟩
  step := by
    have advances := learnt.advances next
    rw [Proceeds]
    generalize session.step = outcome at advances ⊢
    cases advances with
    | known accepted =>
      -- The sample is one of the words already.
      have same : insert sample session.hypothesis.language = session.hypothesis.language :=
        Set.insert_eq_of_mem (learnt.represents.mem_language.2 accepted)
      exact .inl ⟨_, _, rfl, same.subset, fun _ => same.symm⟩
    | @learnt path grown settlement rejected coerced represents spells settled sound =>
      have added := learnt.language_coerce next coerced
      refine .inl ⟨_, _, rfl, ?_, fun unmerged => ?_⟩
      · -- Merges rename the states of the automaton with the path.
        obtain ⟨change, renamed⟩ := exists_foldl_mergedBy settlement.examinations grown
        rw [renamed] at sound
        rw [← added]
        intro word accepted
        exact sound.represents.mem_language.2 ((represents.mem_language.1 accepted).rename change)
      · -- Without a merge it is still the one with the path.
        rw [foldl_mergedBy_of_countP_eq_zero unmerged] at sound
        rw [← added]
        ext word
        exact sound.represents.mem_language.trans represents.mem_language.symm
    | stuck rejected failed =>
      exact .inr ⟨_, rfl, learnt.outgrown ⟨sample, remaining, next, failed⟩⟩

end Next

/-- A step loses no word. -/
theorem Learnt.language_subset {report : Option StepReport} {after : Session source}
    (done : session.step = .ok (report, after)) :
    session.hypothesis.language ⊆ after.hypothesis.language := by
  cases next : session.samples.positives.drop session.processed with
  | nil =>
    -- Nothing is left to be learnt.
    rw [Session.step, next] at done
    cases done
    exact Set.Subset.rfl
  | cons sample remaining =>
    rcases (learnt.retains next).step with ⟨_, _, again, kept, _⟩ | ⟨_, failed, _⟩
    · cases done.symm.trans again
      exact (Set.subset_insert sample _).trans kept
    · cases done.symm.trans failed

/-- Any number of steps lose no word. -/
theorem Learnt.language_subset_runSteps (more : Nat) :
    (∃ events after, session.runSteps more = .ok (events, after) ∧
      session.hypothesis.language ⊆ after.hypothesis.language) ∨
    ∃ fault, session.runSteps more = .error fault ∧
      Outgrown session.samples.alphabetSize fault := by
  -- Every step keeps the words accepted so far, hence so does any number of steps.
  have grows : ∀ count (middle : Session source) later report after, middle.Learnt count later →
      middle.step = .ok (report, after) →
      session.hypothesis.language ⊆ middle.hypothesis.language →
      session.hypothesis.language ⊆ after.hypothesis.language :=
    fun _ _ _ _ _ kept done before => before.trans (kept.language_subset done)
  rcases learnt.runSteps_keep Set.Subset.rfl grows more with
    ⟨events, after, run, _, _, kept⟩ | stopped
  · exact .inl ⟨events, after, run, kept⟩
  · exact .inr stopped

omit learnt

/-- Steps in a row may be taken in two parts. -/
theorem runSteps_add (session : Session source) (first more : Nat) :
    session.runSteps (first + more) = (do
      let (events, middle) ← session.runSteps first
      let (later, after) ← middle.runSteps more
      return (events ++ later, after)) := by
  -- The induction is on the first steps; a fault in either part ends both sides alike.
  induction first generalizing session with
  | zero =>
    rw [Nat.zero_add, runSteps]
    simp only [Bind.bind, Except.bind]
    cases session.runSteps more <;> rfl
  | succ first ih =>
    rw [Nat.succ_add, runSteps, runSteps]
    cases session.step with
    | error fault => rfl
    | ok result =>
      obtain ⟨report, middle⟩ := result
      simp only [Bind.bind, Except.bind, ih]
      cases middle.runSteps first with
      | error fault => rfl
      | ok result =>
        obtain ⟨events, middle⟩ := result
        simp only [Pure.pure, Except.pure]
        cases middle.runSteps more with
        | error fault => rfl
        | ok result => simp only [List.append_assoc]

end Session

variable [WordSource source]

/-- A run after some steps is that after fewer steps with the others taken on top. -/
theorem afterSteps_add (settings : Settings) (samples : SampleSet) (random : source)
    (first more : Nat) :
    afterSteps settings samples random (first + more) = (do
      let (events, session) ← afterSteps settings samples random first
      match session.runSteps more with
      | .ok (later, after) => return (events ++ later, after)
      | .error fault => .error (.fault fault)) := by
  -- A refused start ends both sides; from a started session it is the fact about steps.
  rw [afterSteps, afterSteps]
  cases Session.start settings samples random with
  | error failure => rfl
  | ok session =>
    simp only [Bind.bind, Except.bind, Session.runSteps_add]
    cases session.runSteps first with
    | error fault => rfl
    | ok result =>
      obtain ⟨events, middle⟩ := result
      simp only [Pure.pure, Except.pure]
      cases middle.runSteps more <;> rfl

/-- A path adds its sample and nothing else, and every word accepted once is accepted ever after. -/
theorem retains_run {samples : SampleSet}
    (disjoint : ∀ sample ∈ samples.positives, sample ∉ samples.negatives) (settings : Settings)
    (random : source) :
    (∀ count, Completes samples.alphabetSize
      (fun session => ∀ sample remaining,
        session.samples.positives.drop session.processed = sample :: remaining →
        session.Retains sample)
      (afterSteps settings samples random count)) ∧
    ∀ first later, first ≤ later → Completes samples.alphabetSize
      (fun after => ∃ events session,
        afterSteps settings samples random first = .ok (events, session) ∧
          session.hypothesis.language ⊆ after.hypothesis.language)
      (afterSteps settings samples random later) := by
  constructor
  · intro count
    refine (afterSteps_learnt disjoint settings random count).imp fun session held => ?_
    obtain ⟨_, plain, learnt⟩ := held
    exact fun sample remaining next => learnt.retains next
  · intro first later fewer
    obtain ⟨more, rfl⟩ := Nat.exists_eq_add_of_le fewer
    have completes := afterSteps_learnt disjoint settings random first
    rw [afterSteps_add]
    generalize afterSteps settings samples random first = outcome at completes ⊢
    match outcome, completes with
    | .ok (events, session), ⟨same, plain, learnt⟩ =>
      -- The later steps are taken from where the first ones led to.
      simp only [Bind.bind, Except.bind]
      rcases learnt.language_subset_runSteps more with
        ⟨others, after, run, kept⟩ | ⟨fault, failed, outgrown⟩
      · rw [run]
        exact ⟨events, session, rfl, kept⟩
      · rw [failed]
        rw [same] at outgrown
        exact outgrown
    | .error (.fault _), outgrown => exact outgrown

/-- The path of the second sample is merged away, and what was accepted before it stays accepted. -/
theorem retains_run_square : ∃ events session others after,
    afterSteps {} sampleSquare (WordCycle.ofList [7]) 1 = .ok (events, session) ∧
      session.Retains [0, 1] ∧
      afterSteps {} sampleSquare (WordCycle.ofList [7]) 2 = .ok (others, after) ∧
      session.hypothesis.language ⊆ after.hypothesis.language := by
  -- The second step learns `[0, 1]` and keeps what the first had learnt.
  obtain ⟨retains, keeps⟩ := retains_run sampleSquare_disjoint {} (WordCycle.ofList [7])
  obtain ⟨events, session, run, retained⟩ :=
    (retains 1).exists_of_isSome (afterSteps_square_isSome 1 (by decide))
  obtain ⟨others, after, later, before, first, again, kept⟩ :=
    (keeps 1 2 (by decide)).exists_of_isSome (afterSteps_square_isSome 2 (by decide))
  cases run.symm.trans again
  have next := next_square (events, session) (by rw [run]; rfl)
  exact ⟨events, session, others, after, run, retained _ _ next, later, kept⟩

end Training

end NfaInduction
