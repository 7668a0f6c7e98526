import NfaInduction.Proofs.Evaluation.Verdict
import NfaInduction.Proofs.Model.RoundTrip
import NfaInduction.Proofs.Sample.Reader
import NfaInduction.Proofs.Text.Line
import NfaInduction.Proofs.Training.Outcome

/-! Trained automata decide all their samples rightly after they are saved and read back. -/

namespace NfaInduction

namespace Training

variable {source : Type}

/-- Over a small alphabet a run completes unless it calls for a state without a slot. -/
theorem Completes.exists_of_limit {alphabetSize : Nat} {holds : Session source → Prop}
    {outcome : Except Failure (List Event × Session source)}
    (completes : Completes alphabetSize holds outcome) (roomy : Automaton.Roomy alphabetSize)
    (limit : ∀ state, outcome ≠ .error (.fault (.stateOutOfRange state Capacity.maxStates))) :
    ∃ events session, outcome = .ok (events, session) ∧ holds session := by
  -- With room for the matrix, only the limit on states is left to be outgrown.
  match outcome, completes with
  | .ok (events, session), held => exact ⟨events, session, rfl, held⟩
  | .error (.fault fault), outgrown =>
    obtain ⟨state, outgrows⟩ := outgrown
    obtain ⟨_, rfl⟩ := outgrows.of_roomy roomy
    exact absurd rfl (limit state)

/-- What has been learnt in the end separates all samples, whatever their order. -/
theorem Session.Learnt.separates_all {session : Session source} {plain : PlainAutomaton}
    {samples : SampleSet} (same : session.samples = samples.sort)
    (learnt : session.Learnt samples.positives.length plain) :
    session.hypothesis.Separates samples.positives samples.negatives := by
  -- All sorted positives are processed, and sorting keeps the samples as they are.
  have separates := learnt.separates
  have all : samples.sort.positives.take samples.positives.length = samples.sort.positives :=
    List.take_of_length_le samples.perm_positives_sort.length_eq.le
  rw [same, all] at separates
  exact ⟨fun sample member => separates.accepts sample (SampleSet.mem_positives_sort.2 member),
    fun sample member => separates.rejects sample (SampleSet.mem_negatives_sort.2 member)⟩

variable [WordSource source]

/-- A copy of an automaton is what is read back from the text of a trained one. -/
def Keeps (samples : SampleSet) (run : Settings × source) (copy : Automaton) : Prop :=
  ∃ events session, train run.1 samples run.2 = .ok (events, session) ∧
    Automaton.ofModelBytes session.hypothesis.modelText.toUTF8 = .ok copy

section Saved

variable {samples : SampleSet}
  (disjoint : ∀ sample ∈ samples.positives, sample ∉ samples.negatives)
  (roomy : Automaton.Roomy samples.alphabetSize)
include disjoint roomy

/-- A run within the limits can be kept, and the copy separates the samples. -/
theorem exists_keeps {run : Settings × source}
    (limit : ∀ state,
      train run.1 samples run.2 ≠ .error (.fault (.stateOutOfRange state Capacity.maxStates)))
    (fits : ∀ events session, train run.1 samples run.2 = .ok (events, session) →
      Capacity.fits session.hypothesis.alphabetSize session.hypothesis.stateCount) :
    ∃ copy, Keeps samples run copy ∧ copy.Separates samples.positives samples.negatives := by
  obtain ⟨events, session, trained, same, plain, learnt⟩ :=
    (train_learnt disjoint run.1 run.2).exists_of_limit roomy limit
  obtain ⟨copy, read, renumbered⟩ :=
    learnt.represents.exists_ofModelBytes (Model.fits_iff.1 (fits events session trained))
  have separates := learnt.separates_all same
  have alphabet : session.hypothesis.alphabetSize = samples.alphabetSize := by
    rw [learnt.represents.alphabet, learnt.alphabet, same]
    rfl
  -- The copy has the same verdict on each word over the alphabet.
  have agrees : ∀ {sample : Sample} {accepted : Bool}, sample.Within samples.alphabetSize →
      session.hypothesis.isMatch sample = .ok accepted → copy.isMatch sample = .ok accepted := by
    intro sample accepted within decided
    obtain ⟨verdict, before, after⟩ := renumbered.isMatch sample (alphabet ▸ within)
    rw [after, ← before, decided]
  exact ⟨copy, ⟨events, session, trained, read⟩,
    fun sample member => agrees (samples.positives_within sample member)
      (separates.accepts sample member),
    fun sample member => agrees (samples.negatives_within sample member)
      (separates.rejects sample member)⟩

/-- Runs within the limits can be kept one by one. -/
theorem exists_copies {runs : List (Settings × source)}
    (limit : ∀ run ∈ runs, ∀ state,
      train run.1 samples run.2 ≠ .error (.fault (.stateOutOfRange state Capacity.maxStates)))
    (fits : ∀ run ∈ runs, ∀ events session, train run.1 samples run.2 = .ok (events, session) →
      Capacity.fits session.hypothesis.alphabetSize session.hypothesis.stateCount) :
    ∃ copies, List.Forall₂ (Keeps samples) runs copies ∧
      ∀ copy ∈ copies, copy.Separates samples.positives samples.negatives := by
  -- One saved copy per run, each found by the hypotheses about its own training.
  induction runs with
  | nil => exact ⟨[], .nil, by simp⟩
  | cons run rest ih =>
    obtain ⟨limitFirst, limitOthers⟩ := List.forall_mem_cons.1 limit
    obtain ⟨fitsFirst, fitsOthers⟩ := List.forall_mem_cons.1 fits
    obtain ⟨copy, kept, separates⟩ := exists_keeps disjoint roomy limitFirst fitsFirst
    obtain ⟨copies, others, all⟩ := ih limitOthers fitsOthers
    exact ⟨copy :: copies, .cons kept others, List.forall_mem_cons.2 ⟨separates, all⟩⟩

end Saved

/-- Automata that are trained, saved and read back are flawless, each alone and all as a committee. -/
theorem saved_flawless {bytes : ByteArray} {file : SampleFile}
    (read : SampleFile.ofBytes bytes = .ok file)
    (disjoint : ∀ sample ∈ file.samples.positives, sample ∉ file.samples.negatives)
    {runs : List (Settings × source)} (somebody : runs ≠ [])
    (limit : ∀ run ∈ runs, ∀ state,
      train run.1 file.samples run.2 ≠ .error (.fault (.stateOutOfRange state Capacity.maxStates)))
    (fits : ∀ run ∈ runs, ∀ events session, train run.1 file.samples run.2 = .ok (events, session) →
      Capacity.fits session.hypothesis.alphabetSize session.hypothesis.stateCount) :
    ∃ copies committee, List.Forall₂ (Keeps file.samples) runs copies ∧
      Committee.ofMembers copies = .ok committee ∧
      -- The samples may have been sorted in the meantime, or be listed in any other order.
      ∀ listed : SampleSet, listed.positives.Perm file.samples.positives →
        listed.negatives.Perm file.samples.negatives →
        (∀ copy ∈ copies, Flawless copy.isMatch listed) ∧ Flawless committee.accepts listed := by
  have roomy := (Model.fits_iff.1 (SampleFile.fits_of_ofBytes read)).roomy
  obtain ⟨copies, kept, separates⟩ := exists_copies disjoint roomy limit fits
  have nonempty : copies ≠ [] := by
    rintro rfl
    cases kept
    exact somebody rfl
  obtain ⟨committee, formed, members⟩ : ∃ committee, Committee.ofMembers copies = .ok committee ∧
      committee.members = copies := by
    cases copies with
    | nil => exact absurd rfl nonempty
    | cons first rest => exact ⟨_, rfl, rfl⟩
  refine ⟨copies, committee, kept, formed, fun listed positives negatives => ⟨?_, ?_⟩⟩
  · intro copy member
    exact flawless_of_separates
      (fun sample given => (separates copy member).accepts sample (positives.mem_iff.1 given))
      (fun sample given => (separates copy member).rejects sample (negatives.mem_iff.1 given))
  · -- All members agree about each sample.
    subst members
    exact flawless_of_separates
      (fun sample given => Committee.accepts_of_unanimous fun copy member =>
        (separates copy member).accepts sample (positives.mem_iff.1 given))
      (fun sample given => Committee.accepts_of_unanimous fun copy member =>
        (separates copy member).rejects sample (negatives.mem_iff.1 given))

/-- A file with one positive and one negative sample. -/
def pairLines : List String := ["2 2", "1 2 0 1", "0 0"]

/-- A run that searches the best partners in an order of its own, and one that takes the first ones. -/
def pairRuns : List (Settings × WordCycle) :=
  [({}, .ofList [7]), ({ skipBestSearch := true, deterministic := true }, .ofList [])]

/-- Two automata for the file are flawless on it, and so is their committee. -/
theorem saved_flawless_pair : ∃ file copies committee,
    SampleFile.ofBytes (Text.ofLines pairLines).toUTF8 = .ok file ∧
    List.Forall₂ (Keeps file.samples) pairRuns copies ∧
    Committee.ofMembers copies = .ok committee ∧
    (∀ copy ∈ copies, Flawless copy.isMatch file.samples) ∧
    Flawless committee.accepts file.samples := by
  -- Both runs evaluate to a completed training, so neither limit is met.
  have read : SampleFile.ofBytes (Text.ofLines pairLines).toUTF8 = .ok ⟨2, samplePair⟩ := by
    rw [SampleFile.ofBytes, Text.lines_ofLines (by decide)]
    decide +kernel
  have completes : ∀ run ∈ pairRuns, (train run.1 samplePair run.2).isOk := by decide +kernel
  have small : ∀ run ∈ pairRuns, ∀ result ∈ (train run.1 samplePair run.2).toOption,
      Capacity.fits result.2.hypothesis.alphabetSize result.2.hypothesis.stateCount := by
    decide +kernel
  have limit : ∀ run ∈ pairRuns, ∀ state, train run.1 samplePair run.2 ≠
      .error (.fault (.stateOutOfRange state Capacity.maxStates)) := by
    intro run member state failed
    obtain ⟨result, trained⟩ := exists_of_isOk (completes run member)
    cases failed.symm.trans trained
  have fits : ∀ run ∈ pairRuns, ∀ events session,
      train run.1 samplePair run.2 = .ok (events, session) →
      Capacity.fits session.hypothesis.alphabetSize session.hypothesis.stateCount := by
    intro run member events session trained
    exact small run member (events, session) (by rw [trained]; rfl)
  obtain ⟨copies, committee, kept, formed, flawless⟩ :=
    saved_flawless read samplePair_disjoint (List.cons_ne_nil _ _ : pairRuns ≠ []) limit fits
  exact ⟨_, copies, committee, read, kept, formed, flawless samplePair (.refl _) (.refl _)⟩

end Training

end NfaInduction
