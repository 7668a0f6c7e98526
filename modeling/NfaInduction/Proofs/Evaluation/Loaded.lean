import NfaInduction.Command.Run
import NfaInduction.Proofs.Automaton.Guarded
import NfaInduction.Proofs.Evaluation.Verdict
import NfaInduction.Proofs.Model.Loading

/-! Automata that are read from text decide all samples whose alphabet they know. -/

namespace NfaInduction

/-- A classifier decides all samples, each of them once. -/
structure DecidesAll (classifier : Classifier) (samples : SampleSet) : Prop where
  /-- No sample leads to a fault. -/
  fault : (Trial.run classifier samples).fault = none
  /-- The decisions are those about the samples, the positive ones first and each in its place. -/
  decisions : ∃ verdict : Sample → Bool,
    (∀ sample ∈ samples.positives ++ samples.negatives, classifier sample = .ok (verdict sample)) ∧
    (Trial.run classifier samples).decisions =
      Trial.decisionsFrom verdict .positive 0 samples.positives ++
        Trial.decisionsFrom verdict .negative 0 samples.negatives
  /-- There are as many decisions as samples. -/
  length : (Trial.run classifier samples).decisions.length = samples.size

/-- What a classifier decides about a sample, where it does. -/
def Classifier.verdict (classifier : Classifier) (sample : Sample) : Bool :=
  (classifier sample).toOption.getD false

/-- Where a classifier decides, it gives its verdict. -/
theorem Classifier.eq_ok_verdict {classifier : Classifier} {sample : Sample}
    (decided : ∃ accepted, classifier sample = .ok accepted) :
    classifier sample = .ok (verdict classifier sample) := by
  obtain ⟨accepted, found⟩ := decided
  rw [verdict, found]
  rfl

/-- A classifier that decides every word over an alphabet decides all samples over it. -/
theorem decidesAll_of_within {classifier : Classifier} {samples : SampleSet}
    (decided : ∀ sample : Sample, sample.Within samples.alphabetSize →
      ∃ accepted, classifier sample = .ok accepted) : DecidesAll classifier samples := by
  have positive := fun sample member =>
    Classifier.eq_ok_verdict (decided sample (samples.positives_within sample member))
  have negative := fun sample member =>
    Classifier.eq_ok_verdict (decided sample (samples.negatives_within sample member))
  -- Where every sample is decided, a run is one decision after another.
  have run := Trial.run_eq positive negative
  constructor
  case fault => rw [run]
  case decisions =>
    refine ⟨Classifier.verdict classifier, List.forall_mem_append.2 ⟨positive, negative⟩, ?_⟩
    rw [run]
  case length =>
    rw [run]
    simp [Trial.decisionsFrom, SampleSet.size]

/-- A word over an alphabet is one over any larger alphabet. -/
theorem Sample.Within.mono {sample : Sample} {small large : Nat} (within : sample.Within small)
    (ordered : small ≤ large) : sample.Within large :=
  fun symbol member => Nat.lt_of_lt_of_le (within symbol member) ordered

/-- Some members make up a committee. -/
theorem Committee.exists_ofMembers {members : List Automaton} (somebody : members ≠ []) :
    ∃ committee, ofMembers members = .ok committee ∧ committee.members = members := by
  cases members with
  | nil => exact absurd rfl somebody
  | cons first rest => exact ⟨_, rfl, rfl⟩

/-- A committee decides what all of its members decide. -/
theorem Committee.exists_accepts {committee : Committee} {sample : Sample}
    (decided : ∀ member ∈ committee.members, ∃ accepted, member.isMatch sample = .ok accepted) :
    ∃ accepted, committee.accepts sample = .ok accepted := by
  let verdict (member : Automaton) : Bool := Classifier.verdict member.isMatch sample
  exact ⟨_, @accepts_eq _ _ verdict fun member held =>
    Classifier.eq_ok_verdict (decided member held)⟩

namespace Automaton

/-- What is read from text represents some plain automaton. -/
theorem exists_represents_of_ofModelBytes {bytes : ByteArray} {automaton : Automaton}
    (read : ofModelBytes bytes = .ok automaton) : ∃ plain, automaton.Represents plain := by
  obtain ⟨model, described, rfl⟩ := map_eq_ok.1 read
  exact ⟨_, (Model.wellFormed_of_ofLines described).represents⟩

/-- An automaton decides every word over an alphabet that it knows. -/
theorem Represents.exists_isMatch {automaton : Automaton} {plain : PlainAutomaton}
    (represents : automaton.Represents plain) {sample : Sample} {alphabetSize : Nat}
    (known : alphabetSize ≤ automaton.alphabetSize) (within : sample.Within alphabetSize) :
    ∃ accepted, automaton.isMatch sample = .ok accepted :=
  ⟨_, represents.isMatch (within.mono (represents.alphabet ▸ known))⟩

end Automaton

namespace Command

/-- A model passes the check exactly if it knows all symbols of the samples. -/
theorem checkAlphabet_eq_ok {samples : SampleSet} {model : Automaton} :
    checkAlphabet samples model = .ok () ↔ samples.alphabetSize ≤ model.alphabetSize := by
  rw [checkAlphabet]
  split
  · simpa
  · simpa using Nat.le_of_not_lt ‹_›

/-- Models and samples are read from their texts, and each model passes the check. -/
structure Loaded (texts : List ByteArray) (models : List Automaton) (bytes : ByteArray)
    (samples : SampleSet) : Prop where
  /-- Each model is read from its text. -/
  modelsRead : List.Forall₂ (fun text model => Automaton.ofModelBytes text = .ok model) texts models
  /-- The samples are read from theirs. -/
  samplesRead : ∃ declared, SampleFile.ofBytes bytes = .ok ⟨declared, samples⟩
  /-- No model lacks a symbol. -/
  checked : ∀ model ∈ models, checkAlphabet samples model = .ok ()

/--
Models that pass the check decide all samples, each alone and all as a committee.

Matching with guards tells that no row is read that is not there.
-/
theorem decidesAll_of_loaded {texts : List ByteArray} {models : List Automaton} {bytes : ByteArray}
    {samples : SampleSet} (loaded : Loaded texts models bytes samples) :
    (∀ model ∈ models, DecidesAll model.isMatch samples ∧
      ∀ sample, model.isMatch? sample = model.isMatch sample) ∧
    (models ≠ [] → ∃ committee, Committee.ofMembers models = .ok committee ∧
      committee.members = models ∧ DecidesAll committee.accepts samples) := by
  have sound : ∀ model ∈ models, ∃ plain, model.Represents plain :=
    Model.forall_of_forall₂ loaded.modelsRead fun _ _ => Automaton.exists_represents_of_ofModelBytes
  have decided : ∀ model ∈ models, ∀ sample : Sample, sample.Within samples.alphabetSize →
      ∃ accepted, model.isMatch sample = .ok accepted := by
    -- The check compares two sizes of alphabets, and the samples keep to the smaller one.
    intro model member sample within
    obtain ⟨plain, represents⟩ := sound model member
    exact represents.exists_isMatch (checkAlphabet_eq_ok.1 (loaded.checked model member)) within
  refine ⟨fun model member => ?_, fun somebody => ?_⟩
  · obtain ⟨plain, represents⟩ := sound model member
    exact ⟨decidesAll_of_within (decided model member), represents.shaped.isMatch?_eq⟩
  · obtain ⟨committee, formed, rfl⟩ := Committee.exists_ofMembers somebody
    exact ⟨committee, formed, rfl, decidesAll_of_within fun sample within =>
      Committee.exists_accepts fun model member => decided model member sample within⟩

/-- What is read from lines is the automaton of the model that they describe. -/
theorem ofModelBytes_ofLines {lines : List String} {model : Model}
    (whole : ∀ line ∈ lines, '\n' ∉ line.toList)
    (read : Model.ofLines (lines.map .ok) = .ok model) :
    Automaton.ofModelBytes (Text.ofLines lines).toUTF8 = .ok model.toAutomaton := by
  rw [Automaton.ofModelBytes, Text.lines_ofLines whole, Automaton.ofModelLines, read]
  rfl

/-- A text with an automaton that has a loop. -/
def loopText : List String := ["2", "1", "0", "0", "1", "0 0 1"]

/-- What this text describes. -/
def loopModel : Model := ⟨2, 1, [0], [0], [⟨0, 0, 1⟩]⟩

/-- A text with an automaton that has no states, over a larger alphabet. -/
def vacantText : List String := ["3", "0", "", "", "0"]

/-- What this text describes. -/
def vacantModel : Model := ⟨3, 0, [], [], []⟩

/-- A sample file over the smaller alphabet. -/
def loopSamples : List String := ["2 2", "1 1 1", "0 3 0 1 1"]

/-- The samples in this file keep to the smaller alphabet. -/
theorem loop_within : (∀ sample ∈ ([[1]] : List Sample), sample.Within 2) ∧
    ∀ sample ∈ ([[0, 1, 1]] : List Sample), sample.Within 2 := by
  simp [Sample.Within]

/-- The samples in this file. -/
def loopSet : SampleSet where
  alphabetSize := 2
  positives := [[1]]
  negatives := [[0, 1, 1]]
  positives_within := loop_within.1
  negatives_within := loop_within.2

/-- Both automata decide both samples, and so does the committee of the two. -/
theorem decidesAll_of_loaded_pair : ∃ models samples, samples.size = 2 ∧
    Loaded [(Text.ofLines loopText).toUTF8, (Text.ofLines vacantText).toUTF8] models
      (Text.ofLines loopSamples).toUTF8 samples ∧
    (∀ model ∈ models, DecidesAll model.isMatch samples) ∧
    ∃ committee, Committee.ofMembers models = .ok committee ∧
      DecidesAll committee.accepts samples := by
  -- The second model has no state at all, and a larger alphabet than the samples.
  have loop : Model.ofLines (loopText.map .ok) = .ok loopModel := by decide +kernel
  have vacant : Model.ofLines (vacantText.map .ok) = .ok vacantModel := by decide +kernel
  have read : SampleFile.ofBytes (Text.ofLines loopSamples).toUTF8 = .ok ⟨2, loopSet⟩ := by
    rw [SampleFile.ofBytes, Text.lines_ofLines (by decide)]
    decide +kernel
  -- Both alphabets include that of the samples, which is all that is checked.
  have loaded : Loaded [(Text.ofLines loopText).toUTF8, (Text.ofLines vacantText).toUTF8]
      [loopModel.toAutomaton, vacantModel.toAutomaton] (Text.ofLines loopSamples).toUTF8
      loopSet := by
    constructor
    case modelsRead =>
      exact .cons (ofModelBytes_ofLines (by decide) loop)
        (.cons (ofModelBytes_ofLines (by decide) vacant) .nil)
    case samplesRead => exact ⟨2, read⟩
    case checked =>
      have loopAlphabet : loopModel.toAutomaton.alphabetSize = 2 :=
        (Model.wellFormed_of_ofLines loop).represents.alphabet
      have vacantAlphabet : vacantModel.toAutomaton.alphabetSize = 3 :=
        (Model.wellFormed_of_ofLines vacant).represents.alphabet
      simp [checkAlphabet_eq_ok, loopAlphabet, vacantAlphabet, loopSet]
  obtain ⟨alone, together⟩ := decidesAll_of_loaded loaded
  obtain ⟨committee, formed, _, decides⟩ := together (List.cons_ne_nil _ _)
  exact ⟨_, loopSet, rfl, loaded, fun model member => (alone model member).1, committee, formed,
    decides⟩

end Command

end NfaInduction
