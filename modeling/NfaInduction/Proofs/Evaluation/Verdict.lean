import NfaInduction.Evaluation.Tally
import NfaInduction.Proofs.Except

/-! A classifier that never fails is tried on every sample, and the tally counts its verdicts. -/

namespace NfaInduction

namespace Trial

variable {classifier : Classifier} {verdict : Sample → Bool}

/-- The decisions that verdicts on samples with one label come to, from an index on. -/
def decisionsFrom (verdict : Sample → Bool) (label : Label) (index : Nat) (samples : List Sample) :
    List Decision :=
  (samples.zipIdx index).map fun (sample, place) => ⟨label, place, verdict sample⟩

/-- Samples with one label are all tried if none of them leads to a fault. -/
theorem ofSamples_eq (label : Label) {samples : List Sample}
    (decided : ∀ sample ∈ samples, classifier sample = .ok (verdict sample)) (index : Nat) :
    ofSamples classifier label index samples = ⟨decisionsFrom verdict label index samples, none⟩ := by
  induction samples generalizing index with
  | nil => rfl
  | cons sample rest ih =>
    obtain ⟨first, others⟩ := List.forall_mem_cons.1 decided
    rw [ofSamples, first]
    -- The other samples have the places behind this one.
    simp only [ih others (index + 1)]
    rfl

/-- All samples are tried if none of them leads to a fault, the positive ones first. -/
theorem run_eq {samples : SampleSet}
    (positive : ∀ sample ∈ samples.positives, classifier sample = .ok (verdict sample))
    (negative : ∀ sample ∈ samples.negatives, classifier sample = .ok (verdict sample)) :
    run classifier samples =
      ⟨decisionsFrom verdict .positive 0 samples.positives ++
        decisionsFrom verdict .negative 0 samples.negatives, none⟩ := by
  rw [run, ofSamples_eq .positive positive]
  simp only [ofSamples_eq .negative negative]

/-- As many decisions meet a condition as samples, if it does not look at the places. -/
theorem countP_decisionsFrom {condition : Decision → Bool} {label : Label}
    (placeless : ∀ place accepted, condition ⟨label, place, accepted⟩ = condition ⟨label, 0, accepted⟩)
    (index : Nat) (samples : List Sample) :
    (decisionsFrom verdict label index samples).countP condition =
      samples.countP fun sample => condition ⟨label, 0, verdict sample⟩ := by
  -- Without their places the samples are what they were.
  conv_rhs => rw [← List.zipIdx_map_fst index samples, List.countP_map]
  rw [decisionsFrom, List.countP_map]
  exact List.countP_congr fun (sample, place) _ => by simp [placeless place (verdict sample)]

end Trial

namespace Tally

/-- The numbers that verdicts on some samples come to. -/
def ofVerdict (verdict : Sample → Bool) (samples : SampleSet) : Tally where
  truePositives := samples.positives.countP verdict
  positives := samples.positives.length
  trueNegatives := samples.negatives.countP (!verdict ·)
  negatives := samples.negatives.length

/-- The tally of all decisions counts the verdicts, each under the label of its sample. -/
theorem ofDecisions_run {classifier : Classifier} {verdict : Sample → Bool} {samples : SampleSet}
    (positive : ∀ sample ∈ samples.positives, classifier sample = .ok (verdict sample))
    (negative : ∀ sample ∈ samples.negatives, classifier sample = .ok (verdict sample)) :
    ofDecisions (Trial.run classifier samples).decisions = ofVerdict verdict samples := by
  rw [Trial.run_eq positive negative]
  simp only [ofDecisions, List.countP_append, ofVerdict, Tally.mk.injEq]
  -- The decisions under the other label count for nothing.
  refine ⟨?_, ?_, ?_, ?_⟩ <;>
    rw [Trial.countP_decisionsFrom fun _ _ => rfl, Trial.countP_decisionsFrom fun _ _ => rfl] <;>
    simp

end Tally

/-- A classifier decides all samples, and each of them rightly. -/
structure Flawless (classifier : Classifier) (samples : SampleSet) : Prop where
  /-- No sample leads to a fault. -/
  fault : (Trial.run classifier samples).fault = none
  /-- All positive samples are accepted and all negative ones rejected. -/
  tally : Tally.ofDecisions (Trial.run classifier samples).decisions =
    ⟨samples.positives.length, samples.positives.length,
      samples.negatives.length, samples.negatives.length⟩

/-- A classifier is flawless if it tells positive from negative samples. -/
theorem flawless_of_separates {classifier : Classifier} {samples : SampleSet}
    (accepts : ∀ sample ∈ samples.positives, classifier sample = .ok true)
    (rejects : ∀ sample ∈ samples.negatives, classifier sample = .ok false) :
    Flawless classifier samples := by
  -- A verdict is what the classifier decides, since it decides all samples.
  let verdict (sample : Sample) : Bool := (classifier sample).toOption.getD false
  have positive : ∀ sample ∈ samples.positives, classifier sample = .ok (verdict sample) := by
    intro sample member
    simp only [verdict, accepts sample member]
    rfl
  have negative : ∀ sample ∈ samples.negatives, classifier sample = .ok (verdict sample) := by
    intro sample member
    simp only [verdict, rejects sample member]
    rfl
  constructor
  case fault => rw [Trial.run_eq positive negative]
  case tally =>
    rw [Tally.ofDecisions_run positive negative, Tally.ofVerdict, Tally.mk.injEq]
    refine ⟨List.countP_eq_length.2 fun sample member => ?_, rfl,
      List.countP_eq_length.2 fun sample member => ?_, rfl⟩
    · simp only [verdict, accepts sample member]
      rfl
    · simp only [verdict, rejects sample member]
      rfl

namespace Committee

variable {committee : Committee} {sample : Sample}

/-- As many votes are cast for a sample as members accept it, if none of them fails. -/
theorem votesOf_eq {verdict : Automaton → Bool} {members : List Automaton}
    (decided : ∀ member ∈ members, member.isMatch sample = .ok (verdict member)) :
    votesOf sample members = .ok (members.countP verdict) := by
  induction members with
  | nil => rfl
  | cons member rest ih =>
    obtain ⟨first, others⟩ := List.forall_mem_cons.1 decided
    rw [votesOf, bind_of_ok first, bind_of_ok (ih others), List.countP_cons]
    -- A vote counts one, and any other verdict nothing.
    cases verdict member <;> rfl

/-- A committee accepts what more than half of its members accept, if none of them fails. -/
theorem accepts_eq {verdict : Automaton → Bool}
    (decided : ∀ member ∈ committee.members, member.isMatch sample = .ok (verdict member)) :
    committee.accepts sample =
      .ok (committee.members.length < 2 * committee.members.countP verdict) := by
  have voted : committee.votes sample = .ok (committee.members.countP verdict) := votesOf_eq decided
  -- Half of an odd number is rounded down.
  have majority : committee.members.length / 2 < committee.members.countP verdict ↔
      committee.members.length < 2 * committee.members.countP verdict := by omega
  rw [accepts, bind_of_ok voted, ← decide_eq_decide.2 majority]
  rfl

/-- A committee whose members agree decides as each of them does. -/
theorem accepts_of_unanimous {accepted : Bool}
    (decided : ∀ member ∈ committee.members, member.isMatch sample = .ok accepted) :
    committee.accepts sample = .ok accepted := by
  -- All members vote for the sample or none does, and there is at least one of them.
  have somebody := List.length_pos_iff.2 committee.nonempty
  rw [accepts_eq decided]
  cases accepted with
  | false => simp
  | true =>
    simp only [List.countP_true, Except.ok.injEq, decide_eq_true_eq]
    omega

end Committee

end NfaInduction
