import NfaInduction.Proofs.Automaton.Represents
import NfaInduction.Proofs.Memory
import NfaInduction.Proofs.Sample.Order
import NfaInduction.Random.WordCycle
import NfaInduction.Training.Session

/-! A run starts on sorted samples unless one is labeled both ways or its memory is not granted. -/

namespace NfaInduction

namespace SampleSet

/-- The same samples with the same repetitions, both lists in ascending order. -/
structure SortedInto (samples sorted : SampleSet) : Prop where
  /-- The alphabet is the same. -/
  alphabet : sorted.alphabetSize = samples.alphabetSize
  /-- Positive samples are listed as often as before. -/
  positives : sorted.positives.Perm samples.positives
  /-- Negative samples are listed as often as before. -/
  negatives : sorted.negatives.Perm samples.negatives
  /-- Both lists are in ascending order. -/
  ascending : Sample.Ascending sorted.positives ∧ Sample.Ascending sorted.negatives

/-- Sorting sorts, as often as a sample may be repeated. -/
theorem sortedInto_sort (samples : SampleSet) : samples.SortedInto samples.sort where
  -- A sort by merging permutes both lists.
  alphabet := rfl
  positives := samples.perm_positives_sort
  negatives := List.mergeSort_perm samples.negatives Sample.precedes
  ascending := ⟨Sample.ascending_mergeSort samples.positives,
    Sample.ascending_mergeSort samples.negatives⟩

/-- Samples that are labeled both ways. -/
def Common (samples : SampleSet) (sample : Sample) : Prop :=
  sample ∈ samples.positives ∧ sample ∈ samples.negatives

/-- The shortest sample that is labeled both ways, and of those of its length the first. -/
structure Least (samples : SampleSet) (sample : Sample) : Prop where
  /-- It is labeled both ways. -/
  common : samples.Common sample
  /-- Any other one is longer, or as long and no earlier in lexicographic order. -/
  first : ∀ other, samples.Common other →
    sample.length < other.length ∨ sample.length = other.length ∧ sample ≤ other

/-- What is found in sorted samples is the least one that is labeled both ways. -/
theorem least_of_conflict? {samples : SampleSet} {sample : Sample}
    (conflict : samples.sort.conflict? = some sample) : samples.Least sample := by
  -- What is found first in ascending order is the least.
  have least := samples.conflict?_sort_spec
  rw [conflict] at least
  obtain ⟨positive, negative, smallest⟩ := least
  exact ⟨⟨positive, negative⟩, fun other common =>
    (sample.precedes_iff other).1 (smallest other common.1 common.2)⟩

/-- Nothing is found in sorted samples exactly if none is labeled both ways. -/
theorem conflict?_sort_eq_none_iff (samples : SampleSet) :
    samples.sort.conflict? = none ↔ ∀ sample, ¬samples.Common sample := by
  -- In sorted lists every sample is found that is in both of them.
  constructor
  · intro clear sample common
    have least := samples.conflict?_sort_spec
    rw [clear] at least
    exact least sample common.1 common.2
  · intro distinct
    refine conflict?_eq_none fun sample positive negative => ?_
    exact distinct sample ⟨mem_positives_sort.1 positive, mem_negatives_sort.1 negative⟩

end SampleSet

namespace Training

/-- Samples whose symbols are tested one by one keep to the alphabet. -/
theorem within_of_all {alphabetSize : Nat} {listed : List Sample}
    (tested : listed.all fun sample => sample.all fun symbol => symbol.toNat < alphabetSize) :
    ∀ sample ∈ listed, sample.Within alphabetSize := by
  intro sample member symbol held
  exact of_decide_eq_true (List.all_eq_true.1 (List.all_eq_true.1 tested sample member) symbol held)

namespace Session

variable {source : Type}

/-- The refusal of samples for one that is labeled both ways. -/
def refusal {built : Type} (sample : Sample) : Except Failure built :=
  .error (.error (.conflictingSample sample))

/-- On samples with a conflict nothing is built. -/
theorem unlessConflicting_of_some {built : Type} {samples : SampleSet} {sample : Sample}
    (conflict : samples.conflict? = some sample) (build : Except Fault built) :
    unlessConflicting samples build = refusal sample := by
  rw [unlessConflicting, conflict, refusal]

/-- On samples without a conflict nothing but a fault is in the way. -/
theorem unlessConflicting_of_none {built : Type} {samples : SampleSet}
    (clear : samples.conflict? = none) (build : Except Fault built) :
    unlessConflicting samples build = build.mapError .fault := by
  rw [unlessConflicting, clear]

/-- Only a conflict has samples refused. -/
theorem unlessConflicting_eq_refusal_iff {built : Type} {samples : SampleSet} {sample : Sample}
    {build : Except Fault built} :
    unlessConflicting samples build = refusal sample ↔ samples.conflict? = some sample := by
  -- Whatever is built, its faults are not refusals.
  cases conflict : samples.conflict? with
  | none =>
    rw [unlessConflicting_of_none conflict]
    cases build <;> simp [refusal, Except.mapError]
  | some found =>
    rw [unlessConflicting_of_some conflict]
    simp [refusal]

/-- On sorted samples without a conflict a run starts if there is an automaton for it. -/
theorem ofSorted_of_none {samples : SampleSet} (clear : samples.conflict? = none)
    (settings : Settings) (random : source) : ofSorted settings samples random =
      match Automaton.ofAlphabet samples.alphabetSize with
      | .ok hypothesis => .ok ⟨settings, samples, 0, hypothesis, #[], random⟩
      | .error fault => .error (.fault fault) := by
  -- The automaton is all that has to be built.
  rw [ofSorted, unlessConflicting_of_none clear]
  cases Automaton.ofAlphabet samples.alphabetSize with
  | ok hypothesis => rfl
  | error fault => rfl

/-- A run starts on samples only if none of them is labeled both ways. -/
theorem disjoint_of_start {settings : Settings} {samples : SampleSet} {random : source}
    {session : Session source} (started : start settings samples random = .ok session) :
    ∀ sample ∈ samples.positives, sample ∉ samples.negatives := by
  -- A sample in both lists would have been found.
  intro sample positive negative
  have conflict : samples.sort.conflict? ≠ none := fun none =>
    samples.conflict?_sort_eq_none_iff.1 none sample ⟨positive, negative⟩
  obtain ⟨found, conflict⟩ := Option.ne_none_iff_exists'.1 conflict
  rw [start_eq, ofSorted, unlessConflicting_of_some conflict] at started
  cases started

/-- Words of the vectors of all automata of a run whose matrices have a number of words each. -/
def vectors (words : Nat) : List Nat := (List.replicate 3 (Automaton.vectors words)).flatten

variable {heap : Type} {allocator : Allocator heap}

/-- If their words can be counted, the automata of a run are what takes the memory of their vectors. -/
theorem allocate_of_some {alphabetSize words : Nat}
    (counted : Capacity.tableWords alphabetSize Capacity.block = some words) :
    allocate allocator alphabetSize =
      allocator.takeAll (vectors words) >>= fun _ => pure (Automaton.blank alphabetSize) := by
  -- Each of the three takes as much as one automaton does.
  simp only [allocate, Automaton.allocate_of_some allocator counted, vectors, List.replicate,
    List.flatten_cons, List.flatten_nil, List.append_nil, Allocator.takeAll_append, bind_assoc,
    pure_bind]

/-- If no vector is too long, neither is any of a run. -/
theorem short_of_mem_vectors {words : Nat} (short : words * 8 ≤ Allocator.maxBytes) :
    ∀ other ∈ vectors words, other * 8 ≤ Allocator.maxBytes := by
  -- The vectors of the sets have four words each.
  have sets : ∀ other ∈ Automaton.setVectors, other * 8 ≤ Allocator.maxBytes := by decide
  simpa [vectors, Automaton.vectors, List.replicate, or_imp, forall_and, short] using sets

/-- The automata of a run are there once the memory of their vectors is granted. -/
theorem run_allocate_of_granted {alphabetSize words : Nat}
    (counted : Capacity.tableWords alphabetSize Capacity.block = some words)
    (short : words * 8 ≤ Allocator.maxBytes) {free rest : heap}
    (granted : allocator.grantAll? free (vectors words) = some rest) :
    (allocate allocator alphabetSize).run free = .ok (.blank alphabetSize, rest) := by
  -- All vectors are taken at once, and the automaton is known.
  have taken := Allocator.run_takeAll_of_some (short_of_mem_vectors short) granted
  rw [allocate_of_some counted, run_bind_of_ok taken]
  rfl

/-- If the memory of some vector is refused, there is none for one of them. -/
theorem run_allocate_of_refused {alphabetSize words : Nat}
    (counted : Capacity.tableWords alphabetSize Capacity.block = some words)
    (short : words * 8 ≤ Allocator.maxBytes) {free : heap}
    (refused : allocator.grantAll? free (vectors words) = none) :
    ∃ bytes, (allocate allocator alphabetSize).run free = .error (.outOfMemory bytes) := by
  -- The vectors are taken one after the other up to one that is refused.
  obtain ⟨other, -, asked⟩ := Allocator.run_takeAll_of_none (short_of_mem_vectors short) refused
  rw [allocate_of_some counted]
  exact ⟨other * 8, run_bind_of_error asked⟩

/-- What fails for the first automaton of a run fails for the run. -/
theorem run_allocate_of_error {alphabetSize : Nat} {free : heap} {fault : Fault}
    (failed : (Automaton.allocate allocator alphabetSize).run free = .error fault) :
    (allocate allocator alphabetSize).run free = .error fault :=
  run_bind_of_error failed

/-- What becomes of an attempt to start a run on a heap, and of the samples it is started on. -/
structure Begins (allocator : Allocator heap) (free : heap) (settings : Settings)
    (samples : SampleSet) (random : source) (outcome : Except Failure (Session source × heap))
    (sorted : SampleSet) : Prop where
  /-- The samples are sorted in any case. -/
  sorting : samples.SortedInto sorted
  /-- They are refused exactly if one of them is labeled both ways. -/
  refused : (∃ sample, outcome = refusal sample) ↔ ∃ sample, samples.Common sample
  /-- The refusal names the least of these. -/
  least : ∀ sample, outcome = refusal sample → samples.Least sample
  /-- Otherwise the run has learnt nothing yet, if the memory of its automata is granted. -/
  admitted : (∀ sample, ¬samples.Common sample) →
    ∀ words, Capacity.tableWords samples.alphabetSize Capacity.block = some words →
      words * 8 ≤ Allocator.maxBytes →
        ∀ rest, allocator.grantAll? free (vectors words) = some rest →
          outcome = .ok (⟨settings, sorted, 0, .blank samples.alphabetSize, #[], random⟩, rest)
  /-- If some of that memory is refused, there is none for one of the vectors. -/
  exhausted : (∀ sample, ¬samples.Common sample) →
    ∀ words, Capacity.tableWords samples.alphabetSize Capacity.block = some words →
      words * 8 ≤ Allocator.maxBytes → allocator.grantAll? free (vectors words) = none →
        ∃ bytes, outcome = .error (.fault (.outOfMemory bytes))
  /-- A matrix that takes more bytes than a vector may take is not built. -/
  overflowing : (∀ sample, ¬samples.Common sample) →
    ∀ words, Capacity.tableWords samples.alphabetSize Capacity.block = some words →
      Allocator.maxBytes < words * 8 →
        (allocator.grantAll? free Automaton.setVectors).isSome →
          outcome = .error (.fault .capacityOverflow)
  /-- A matrix whose words cannot be counted is not built either. -/
  faulty : (∀ sample, ¬samples.Common sample) →
    Capacity.tableWords samples.alphabetSize Capacity.block = none →
      (allocator.grantAll? free Automaton.setVectors).isSome →
        outcome = .error (.fault (.matrixTooLarge Capacity.block samples.alphabetSize))
  /-- Before either of these there may be no memory for the sets of the first automaton. -/
  starved : (∀ sample, ¬samples.Common sample) →
    allocator.grantAll? free Automaton.setVectors = none →
      ∃ bytes, outcome = .error (.fault (.outOfMemory bytes))
  /-- A run that begins is the one that starts where all memory is granted. -/
  same : ∀ session rest, outcome = .ok (session, rest) →
    start settings samples random = .ok session

/-- On sorted samples without a conflict a fault of an automaton is one of the attempt. -/
theorem ofSortedOnHeap_of_error {samples : SampleSet} (clear : samples.conflict? = none)
    {free : heap} {fault : Fault}
    (failed : (allocate allocator samples.alphabetSize).run free = .error fault)
    (settings : Settings) (random : source) :
    ofSortedOnHeap allocator free settings samples random = .error (.fault fault) := by
  rw [ofSortedOnHeap, unlessConflicting_of_none clear, failed]
  rfl

/-- On sorted samples without a conflict a run starts with the automaton that is allocated. -/
theorem ofSortedOnHeap_of_ok {samples : SampleSet} (clear : samples.conflict? = none)
    {free rest : heap} {hypothesis : Automaton}
    (done : (allocate allocator samples.alphabetSize).run free = .ok (hypothesis, rest))
    (settings : Settings) (random : source) :
    ofSortedOnHeap allocator free settings samples random =
      .ok (⟨settings, samples, 0, hypothesis, #[], random⟩, rest) := by
  rw [ofSortedOnHeap, unlessConflicting_of_none clear, done]
  rfl

/-- The automaton of a run is the first one that is allocated for it. -/
theorem ofAlphabet_of_run_allocate {alphabetSize : Nat} {free rest : heap} {hypothesis : Automaton}
    (done : (allocate allocator alphabetSize).run free = .ok (hypothesis, rest)) :
    Automaton.ofAlphabet alphabetSize = .ok hypothesis := by
  -- The other two automata have no influence on the first one.
  rw [allocate] at done
  obtain ⟨first, left, taken, done⟩ := exists_of_run_bind done
  obtain ⟨-, left, -, done⟩ := exists_of_run_bind done
  obtain ⟨-, left, -, done⟩ := exists_of_run_bind done
  cases done
  exact Automaton.ofAlphabet_of_run_allocate taken

/-- A run that starts on a heap is the one that starts where memory is granted. -/
theorem start_of_ofSortedOnHeap {free rest : heap} {settings : Settings} {samples : SampleSet}
    {random : source} {session : Session source}
    (started : ofSortedOnHeap allocator free settings samples.sort random = .ok (session, rest)) :
    start settings samples random = .ok session := by
  -- Both look for a conflict first, and then build the same automaton.
  rw [ofSortedOnHeap] at started
  rw [start_eq, ofSorted]
  cases conflict : samples.sort.conflict? with
  | some sample =>
    rw [unlessConflicting_of_some conflict] at started
    cases started
  | none =>
    rw [unlessConflicting_of_none conflict] at started ⊢
    cases done : (allocate allocator samples.sort.alphabetSize).run free with
    | error fault =>
      rw [done] at started
      cases started
    | ok outcome =>
      obtain ⟨hypothesis, left⟩ := outcome
      rw [done] at started
      cases started
      rw [ofAlphabet_of_run_allocate done]
      rfl

/-- The conflict check is exact, and without a conflict it is only memory that may be missing. -/
theorem startOnHeap_begins (allocator : Allocator heap) (free : heap) (settings : Settings)
    (samples : SampleSet) (random : source) :
    Begins allocator free settings samples random
      ((startOnHeap allocator free settings random).run.run samples).1
      ((startOnHeap allocator free settings random).run.run samples).2 := by
  -- The lists are sorted first, and without a conflict the outcome is that of the allocation.
  rw [startOnHeap, run_onSorted]
  have clear := samples.conflict?_sort_eq_none_iff
  constructor
  case sorting => exact samples.sortedInto_sort
  case refused =>
    simp only [ofSortedOnHeap, unlessConflicting_eq_refusal_iff]
    constructor
    · rintro ⟨sample, conflict⟩
      exact ⟨sample, (SampleSet.least_of_conflict? conflict).common⟩
    · rintro ⟨sample, common⟩
      exact Option.ne_none_iff_exists'.1 fun none => clear.1 none sample common
  case least =>
    intro sample refused
    rw [ofSortedOnHeap] at refused
    exact SampleSet.least_of_conflict? (unlessConflicting_eq_refusal_iff.1 refused)
  -- Without a conflict there is a lemma for each way in which the allocation can end.
  case admitted =>
    intro distinct words counted short rest granted
    exact ofSortedOnHeap_of_ok (clear.2 distinct) (run_allocate_of_granted counted short granted)
      settings random
  case exhausted =>
    intro distinct words counted short refused
    obtain ⟨bytes, failed⟩ := run_allocate_of_refused counted short refused
    exact ⟨bytes, ofSortedOnHeap_of_error (clear.2 distinct) failed settings random⟩
  case overflowing =>
    intro distinct words counted long granted
    obtain ⟨rest, granted⟩ := Option.isSome_iff_exists.1 granted
    exact ofSortedOnHeap_of_error (clear.2 distinct)
      (run_allocate_of_error (Automaton.run_allocate_of_lt counted long granted)) settings random
  case faulty =>
    intro distinct excessive granted
    obtain ⟨rest, granted⟩ := Option.isSome_iff_exists.1 granted
    exact ofSortedOnHeap_of_error (clear.2 distinct)
      (run_allocate_of_error (Automaton.run_allocate_of_none excessive granted)) settings random
  case starved =>
    intro distinct refused
    obtain ⟨bytes, failed⟩ := Automaton.run_allocate_of_starved samples.alphabetSize refused
    exact ⟨bytes, ofSortedOnHeap_of_error (clear.2 distinct) (run_allocate_of_error failed)
      settings random⟩
  case same => exact fun session rest started => start_of_ofSortedOnHeap started

/-- One sample of each kind over an alphabet whose matrices cannot be counted. -/
def vastSamples : SampleSet where
  alphabetSize := 18014398509481985
  positives := [[0]]
  negatives := [[1]]
  positives_within := within_of_all rfl
  negatives_within := within_of_all rfl

/-- On an alphabet that is too large no run starts, although no sample is labeled both ways. -/
theorem not_startOnHeap_vastSamples :
    ¬((∀ sample ∈ vastSamples.positives, sample ∉ vastSamples.negatives) →
      ∃ session, ((startOnHeap Allocator.boundless () {} (WordCycle.ofList [7])).run.run vastSamples).1 =
        .ok session) := by
  -- The allocator grants everything, and yet the words cannot be counted.
  have distinct : ∀ sample, ¬vastSamples.Common sample := fun sample common =>
    (by decide : ∀ sample ∈ vastSamples.positives, sample ∉ vastSamples.negatives) sample
      common.1 common.2
  intro starts
  obtain ⟨session, started⟩ := starts fun sample positive negative =>
    distinct sample ⟨positive, negative⟩
  have granted : Allocator.boundless.grantAll? () Automaton.setVectors = some () := by decide
  have failed : (allocate Allocator.boundless vastSamples.alphabetSize).run () =
      .error (.matrixTooLarge Capacity.block vastSamples.alphabetSize) :=
    run_allocate_of_error (Automaton.run_allocate_of_none (by decide) granted)
  rw [startOnHeap, run_onSorted, ofSortedOnHeap_of_error
    (vastSamples.conflict?_sort_eq_none_iff.2 distinct) failed] at started
  cases started

end Session

end Training

end NfaInduction
