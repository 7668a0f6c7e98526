import NfaInduction.Proofs.Training.Outcome

/-! A trained automaton has no state and no transition that a processed sample does not account for. -/

namespace NfaInduction

namespace Training

variable {source : Type}

/-- What has been learnt is covered by the samples processed so far. -/
theorem Session.Learnt.covered {session : Session source} {count : Nat} {plain : PlainAutomaton}
    (learnt : session.Learnt count plain) :
    session.hypothesis.Covered (session.samples.positives.take count) :=
  -- The runs of the plain automaton are runs of the one that represents it.
  learnt.represents.covered learnt.grown.covered

variable [WordSource source]

/-- After each step every state and every transition lies on an accepting run of a processed sample. -/
theorem covered_run {samples : SampleSet}
    (disjoint : ∀ sample ∈ samples.positives, sample ∉ samples.negatives) (settings : Settings)
    (random : source) :
    (∀ count, Completes samples.alphabetSize
      (fun session => session.hypothesis.Covered (samples.sort.positives.take count))
      (afterSteps settings samples random count)) ∧
    Completes samples.alphabetSize
      (fun session => session.hypothesis.Covered samples.positives)
      (train settings samples random) := by
  constructor
  · intro count
    refine (afterSteps_learnt disjoint settings random count).imp fun session held => ?_
    obtain ⟨same, plain, learnt⟩ := held
    have covered := learnt.covered
    rwa [same] at covered
  · refine (train_learnt disjoint settings random).imp fun session held => ?_
    obtain ⟨same, plain, learnt⟩ := held
    have covered := learnt.covered
    rw [same] at covered
    -- In the end the processed samples are all of them, in whatever order they were given.
    refine covered.subset fun sample member => ?_
    exact SampleSet.mem_positives_sort.1 (List.mem_of_mem_take member)

/-- Training on a pair of samples completes, and the positive one accounts for what it leads to. -/
theorem covered_run_pair : ∃ events session,
    train {} samplePair (WordCycle.ofList [7]) = .ok (events, session) ∧
      session.hypothesis.Covered samplePair.positives := by
  have completes := (covered_run samplePair_disjoint {} (WordCycle.ofList [7])).2
  exact completes.exists_of_isSome (by decide +kernel)

end Training

end NfaInduction
