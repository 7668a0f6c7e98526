import NfaInduction.Evaluation.Committee
import NfaInduction.Sample.Set

/-! A trial puts every sample to a classifier, and a tally counts the right decisions. -/

namespace NfaInduction

/-- What a classifier decided about one sample. -/
structure Decision where
  /-- What is known about the sample. -/
  label : Label
  /-- Index of the sample among those with its label. -/
  index : Nat
  /-- Whether the sample was accepted. -/
  accepted : Bool
deriving DecidableEq

/-- The decisions of a classifier up to the first fault. -/
structure Trial where
  /-- The decisions in the order of the samples. -/
  decisions : List Decision
  /-- The fault, if there was one. -/
  fault : Option Fault
deriving DecidableEq

namespace Trial

/-- Decisions on samples with one label, the first of which has the given index. -/
def ofSamples (classifier : Classifier) (label : Label) (index : Nat) : List Sample → Trial
  | [] => ⟨[], none⟩
  | sample :: rest =>
    match classifier sample with
    | .error fault => ⟨[], some fault⟩
    | .ok accepted =>
      let later := ofSamples classifier label (index + 1) rest
      ⟨⟨label, index, accepted⟩ :: later.decisions, later.fault⟩

/-- Decisions on all samples, the positive ones first. -/
def run (classifier : Classifier) (samples : SampleSet) : Trial :=
  let positive := ofSamples classifier .positive 0 samples.positives
  match positive.fault with
  | some _ => positive
  | none =>
    let negative := ofSamples classifier .negative 0 samples.negatives
    ⟨positive.decisions ++ negative.decisions, negative.fault⟩

end Trial

/-- Numbers of decisions, and of right ones, for each label. -/
structure Tally where
  /-- Accepted positive samples. -/
  truePositives : Nat
  /-- Positive samples. -/
  positives : Nat
  /-- Rejected negative samples. -/
  trueNegatives : Nat
  /-- Negative samples. -/
  negatives : Nat
deriving DecidableEq

namespace Tally

/-- The numbers of some decisions. -/
def ofDecisions (decisions : List Decision) : Tally where
  truePositives := decisions.countP fun decision => decision.label = .positive && decision.accepted
  positives := decisions.countP (·.label = .positive)
  trueNegatives := decisions.countP fun decision => decision.label = .negative && !decision.accepted
  negatives := decisions.countP (·.label = .negative)

/-- Number of decisions. -/
def total (tally : Tally) : Nat := tally.positives + tally.negatives

/-- Number of right decisions. -/
def correct (tally : Tally) : Nat := tally.truePositives + tally.trueNegatives

/-- A part of a whole, unless the whole is nothing. -/
def rate? (part whole : Nat) : Option Float :=
  if whole = 0 then none else some (Float.ofNat part / Float.ofNat whole)

/-- Share of right decisions. -/
def accuracy? (tally : Tally) : Option Float := rate? tally.correct tally.total

/-- Share of positive samples that were accepted. -/
def truePositiveRate? (tally : Tally) : Option Float := rate? tally.truePositives tally.positives

/-- Share of negative samples that were rejected. -/
def trueNegativeRate? (tally : Tally) : Option Float := rate? tally.trueNegatives tally.negatives

end Tally

end NfaInduction
