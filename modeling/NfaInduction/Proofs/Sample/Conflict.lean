import NfaInduction.Sample.Set

/-! A conflict is a sample that is labeled both ways, so that a set without such a sample has none. -/

namespace NfaInduction

/-- Samples that neither precede nor follow each other are the same. -/
theorem Sample.eq_of_order_eq {left right : Sample} (same : left.order right = .eq) :
    left = right := by
  -- Samples of one length are compared symbol by symbol.
  rw [order, Ordering.then_eq_eq] at same
  exact Std.LawfulEqOrd.eq_of_compare same.2

namespace SampleSet

/-- What is found in a part of an array is there. -/
theorem mem_of_isFoundWithin {listed : Array Sample} {sample : Sample} {first count : Nat}
    {inside : first + count ≤ listed.size} (found : isFoundWithin listed sample first count inside) :
    sample ∈ listed := by
  -- The last place that is left holds the sample.
  fun_induction isFoundWithin listed sample first count inside with
  | case1 first count _ several half greater ih => exact ih found
  | case2 first count _ several half noGreater ih => exact ih found
  | case3 first count _ noMore single =>
    rw [← Sample.eq_of_order_eq (of_decide_eq_true found)]
    exact Array.getElem_mem _
  | case4 => cases found

/-- A conflict is a sample that is listed both ways. -/
theorem mem_of_conflict? {samples : SampleSet} {sample : Sample}
    (conflict : samples.conflict? = some sample) :
    sample ∈ samples.positives ∧ sample ∈ samples.negatives := by
  have found := List.find?_some conflict
  exact ⟨List.mem_of_find?_eq_some conflict, List.mem_toArray.1 (mem_of_isFoundWithin found)⟩

/-- A set without a sample labeled both ways has no conflict. -/
theorem conflict?_eq_none {samples : SampleSet}
    (disjoint : ∀ sample ∈ samples.positives, sample ∉ samples.negatives) :
    samples.conflict? = none := by
  rw [Option.eq_none_iff_forall_ne_some]
  intro sample conflict
  obtain ⟨positive, negative⟩ := mem_of_conflict? conflict
  exact disjoint sample positive negative

/-- Sorting keeps each positive sample as often as it was given. -/
theorem perm_positives_sort (samples : SampleSet) : samples.sort.positives.Perm samples.positives :=
  List.mergeSort_perm samples.positives Sample.precedes

/-- Sorting keeps the positive samples. -/
theorem mem_positives_sort {samples : SampleSet} {sample : Sample} :
    sample ∈ samples.sort.positives ↔ sample ∈ samples.positives :=
  List.mem_mergeSort

/-- Sorting keeps the negative samples. -/
theorem mem_negatives_sort {samples : SampleSet} {sample : Sample} :
    sample ∈ samples.sort.negatives ↔ sample ∈ samples.negatives :=
  List.mem_mergeSort

end SampleSet

end NfaInduction
