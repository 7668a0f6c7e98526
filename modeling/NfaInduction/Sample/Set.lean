import NfaInduction.Error

/-! A sample set holds positive and negative samples whose symbols all belong to one alphabet. -/

namespace NfaInduction

/-- Positive and negative samples over one alphabet. -/
structure SampleSet where
  /-- Number of symbols of the alphabet. -/
  alphabetSize : Nat
  /-- Samples that belong to the language. -/
  positives : List Sample
  /-- Samples that do not belong to the language. -/
  negatives : List Sample
  /-- Positive samples keep to the alphabet. -/
  positives_within : ∀ sample ∈ positives, sample.Within alphabetSize
  /-- Negative samples keep to the alphabet. -/
  negatives_within : ∀ sample ∈ negatives, sample.Within alphabetSize
deriving DecidableEq

namespace SampleSet

/-- The first symbol outside the alphabet, with the sample that holds it. -/
def firstOffence? (alphabetSize : Nat) (samples : List Sample) : Option (Symbol × Sample) :=
  samples.findSome? fun sample =>
    (sample.find? (alphabetSize ≤ ·.toNat)).map (·, sample)

/-- Samples without an offence keep to the alphabet. -/
theorem within_of_firstOffence?_eq_none {alphabetSize : Nat} {samples : List Sample}
    (clean : firstOffence? alphabetSize samples = none) {sample : Sample}
    (member : sample ∈ samples) : sample.Within alphabetSize := by
  -- No sample has a first symbol outside the alphabet, so none has any.
  intro symbol held
  have found := List.findSome?_eq_none_iff.1 clean sample member
  simp only [Option.map_eq_none_iff, List.find?_eq_none, decide_eq_true_eq] at found
  have := found symbol held
  omega

/-- The set of the given samples, unless one of them leaves the alphabet. -/
def ofParts (alphabetSize : Nat) (positives negatives : List Sample) : Except Error SampleSet :=
  match offence : firstOffence? alphabetSize (positives ++ negatives) with
  | some (symbol, sample) =>
    .error (.invalidArgument (.symbolBeyondAlphabet symbol sample alphabetSize))
  -- That nothing was found is the evidence which the set carries.
  | none => .ok {
    alphabetSize, positives, negatives
    positives_within := fun _ member =>
      within_of_firstOffence?_eq_none offence (List.mem_append_left _ member)
    negatives_within := fun _ member =>
      within_of_firstOffence?_eq_none offence (List.mem_append_right _ member) }

/-- Number of samples. -/
def size (samples : SampleSet) : Nat := samples.positives.length + samples.negatives.length

/-- All samples with their labels, the positive ones first. -/
def labeled (samples : SampleSet) : List (Label × Sample) :=
  samples.positives.map (.positive, ·) ++ samples.negatives.map (.negative, ·)

/-- The set with both lists in ascending order. -/
def sort (samples : SampleSet) : SampleSet where
  alphabetSize := samples.alphabetSize
  positives := samples.positives.mergeSort Sample.precedes
  negatives := samples.negatives.mergeSort Sample.precedes
  -- Sorting keeps the members, and with them their evidence.
  positives_within sample member := samples.positives_within sample (List.mem_mergeSort.1 member)
  negatives_within sample member := samples.negatives_within sample (List.mem_mergeSort.1 member)

/-- Whether a sample is found in a part of an ascending array by halving it until one place is left. -/
def isFoundWithin (listed : Array Sample) (sample : Sample) (first count : Nat)
    (inside : first + count ≤ listed.size) : Bool :=
  if several : 1 < count then
    let half := count / 2
    -- The sample cannot lie behind a greater one, and need not lie before one that is no greater.
    if listed[first + half].order sample = .gt then
      isFoundWithin listed sample first (count - half) (by omega)
    else isFoundWithin listed sample (first + half) (count - half) (by omega)
  else if single : 0 < count then listed[first].order sample = .eq
  else false
termination_by count

/-- Whether a sample is found in an ascending array. -/
def isFound (listed : Array Sample) (sample : Sample) : Bool :=
  isFoundWithin listed sample 0 listed.size (Nat.le_of_eq (Nat.zero_add _))

/-- The first positive sample of a sorted set that is found among the negative ones. -/
def conflict? (samples : SampleSet) : Option Sample :=
  samples.positives.find? (isFound samples.negatives.toArray)

end SampleSet

end NfaInduction
