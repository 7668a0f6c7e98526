import NfaInduction.Proofs.Sample.Conflict

/-! The order of samples is total, so that sorting is unique and halving finds the least conflict. -/

namespace NfaInduction

namespace Sample

/-- The order of lengths and symbols is consistent. -/
instance : Std.TransCmp order := inferInstanceAs (Std.TransCmp (compareLex (compareOn List.length) compare))

/-- Samples are compared from their first symbol on, as words in a dictionary. -/
theorem isLE_compare_iff (left right : Sample) : (compare left right).isLE ↔ left ≤ right := by
  -- Both orders compare the first letters and go on to the rest when these are equal.
  rw [List.compare_eq_compareLex]
  induction left generalizing right with
  | nil => simp [List.isLE_compareLex_nil_left]
  | cons first rest ih =>
    cases right with
    | nil => simp [List.compareLex_cons_nil]
    | cons other others =>
      rw [List.compareLex_cons_cons, Ordering.isLE_then_iff_or, ih, List.cons_le_cons_iff,
        Std.compare_eq_lt, Std.compare_eq_iff_eq]

/-- Shorter samples come first, and those of one length in lexicographic order. -/
theorem precedes_iff (left right : Sample) :
    left.precedes right ↔
      left.length < right.length ∨ left.length = right.length ∧ left ≤ right := by
  rw [precedes, order, Ordering.isLE_then_iff_or, Nat.compare_eq_lt, Nat.compare_eq_eq,
    isLE_compare_iff]

/-- What precedes a sample precedes whatever comes after this one. -/
theorem precedes_trans (first second third : Sample) (left : first.precedes second)
    (right : second.precedes third) : first.precedes third :=
  Std.TransCmp.isLE_trans left right

/-- Of two samples one precedes the other. -/
theorem precedes_total (left right : Sample) : left.precedes right || right.precedes left := by
  -- Exchanging the samples turns the order around.
  rw [precedes, precedes, @Std.OrientedCmp.eq_swap _ order _ right left]
  cases left.order right <;> rfl

/-- Samples that precede each other are the same. -/
theorem precedes_antisymm {left right : Sample} (before : left.precedes right)
    (after : right.precedes left) : left = right :=
  eq_of_order_eq (Std.OrientedCmp.isLE_antisymm before after)

/-- Every sample precedes itself. -/
theorem precedes_refl (sample : Sample) : sample.precedes sample := by
  simpa using precedes_total sample sample

/-- Samples are listed in ascending order, where one may occur several times. -/
def Ascending (samples : List Sample) : Prop := samples.Pairwise fun left right => left.precedes right

/-- Whether samples are in ascending order is found by comparing them. -/
instance (samples : List Sample) : Decidable (Ascending samples) :=
  inferInstanceAs (Decidable (samples.Pairwise fun left right => left.precedes right))

/-- Sorted samples are in ascending order. -/
theorem ascending_mergeSort (samples : List Sample) : Ascending (samples.mergeSort precedes) :=
  List.pairwise_mergeSort precedes_trans precedes_total samples

/-- Samples in ascending order are listed in one way only. -/
theorem Ascending.eq_of_perm {lefts rights : List Sample} (left : Ascending lefts)
    (right : Ascending rights) (same : lefts.Perm rights) : lefts = rights :=
  same.eq_of_pairwise (fun _ _ _ _ => precedes_antisymm) left right

/-- Samples are sorted into the list that has them in ascending order. -/
theorem Ascending.mergeSort_eq {given listed : List Sample} (ascending : Ascending listed)
    (same : given.Perm listed) : given.mergeSort precedes = listed :=
  (ascending_mergeSort given).eq_of_perm ascending ((List.mergeSort_perm given _).trans same)

/-- Of ascending samples the earlier ones precede the later ones. -/
theorem Ascending.precedes_getElem {listed : List Sample} (ascending : Ascending listed)
    {earlier later : Nat} (before : earlier ≤ later) (within : later < listed.length) :
    listed[earlier].precedes listed[later] := by
  rcases Nat.eq_or_lt_of_le before with rfl | strictly
  · exact precedes_refl _
  · exact List.pairwise_iff_getElem.1 ascending earlier later _ within strictly

end Sample

namespace SampleSet

open Sample (Ascending)

/-- Lists without a common sample, or with a least one among their common samples. -/
def LeastCommon (lefts rights : List Sample) : Option Sample → Prop
  | none => ∀ sample ∈ lefts, sample ∉ rights
  | some sample => sample ∈ lefts ∧ sample ∈ rights ∧
    ∀ other ∈ lefts, other ∈ rights → sample.precedes other

/-- Halving a part of ascending samples finds each sample of the part. -/
theorem isFoundWithin_of_getElem {listed : Array Sample} {sample : Sample} {first count : Nat}
    {inside : first + count ≤ listed.size} (ascending : Ascending listed.toList) {place : Nat}
    (present : place < listed.size) (held : listed[place] = sample) (lower : first ≤ place)
    (upper : place < first + count) : isFoundWithin listed sample first count inside := by
  -- The place stays within the bounds of the search in each of its cases.
  fun_induction isFoundWithin listed sample first count inside generalizing place with
  | case1 first count inside several half greater =>
    rename_i ih
    -- The sample stands before the greater one in the middle.
    refine ih present held lower (Nat.lt_of_not_le fun beyond => ?_)
    have middle : first + half ≤ place := by omega
    have precedes := ascending.precedes_getElem middle (by simpa using present)
    simp only [Array.getElem_toList, held] at precedes
    rw [Sample.precedes, greater] at precedes
    cases precedes
  | case2 first count inside several half noGreater =>
    rename_i ih
    have bound : first + half < listed.size := by omega
    by_cases behind : first + half ≤ place
    · exact ih present held behind (by omega)
    · -- What lies between two samples of which neither is greater is the same as both.
      have precedes := ascending.precedes_getElem (Nat.le_of_not_le behind) (by simpa using bound)
      simp only [Array.getElem_toList, held] at precedes
      have back : listed[first + half].precedes sample := by
        rw [Sample.precedes, Ordering.isLE_iff_ne_gt]
        exact noGreater
      exact ih bound (Sample.precedes_antisymm back precedes) (Nat.le_refl _) (by omega)
  | case3 first count inside noMore single =>
    obtain rfl : place = first := by omega
    rw [held]
    exact decide_eq_true Std.ReflCmp.compare_self
  | case4 first count inside noMore none => omega

/-- A sample is found in an ascending array exactly if it is there. -/
theorem isFound_iff {listed : Array Sample} {sample : Sample}
    (ascending : Ascending listed.toList) : isFound listed sample ↔ sample ∈ listed := by
  -- The bisection keeps the place of the sample within its bounds.
  constructor
  · exact mem_of_isFoundWithin
  · intro member
    obtain ⟨place, present, held⟩ := Array.getElem_of_mem member
    exact isFoundWithin_of_getElem ascending present held (Nat.zero_le place) (by omega)

/-- In a set with both lists ascending, the conflict is the least sample of both. -/
theorem conflict?_spec {samples : SampleSet} (positives : Ascending samples.positives)
    (negatives : Ascending samples.negatives) :
    LeastCommon samples.positives samples.negatives samples.conflict? := by
  have found : ∀ sample, isFound samples.negatives.toArray sample ↔ sample ∈ samples.negatives :=
    fun sample => (isFound_iff negatives).trans List.mem_toArray
  cases conflict : samples.conflict? with
  | none =>
    intro sample positive negative
    exact List.find?_eq_none.1 conflict sample positive ((found sample).2 negative)
  | some sample =>
    obtain ⟨positive, negative⟩ := mem_of_conflict? conflict
    refine ⟨positive, negative, fun other otherPositive otherNegative => ?_⟩
    obtain ⟨_, before, after, listed, noneBefore⟩ := List.find?_eq_some_iff_append.1 conflict
    rw [listed] at positives otherPositive
    -- No positive sample before the first that is found is a negative one as well.
    rcases List.mem_append.1 otherPositive with early | late
    · have missed := noneBefore other early
      rw [(found other).2 otherNegative] at missed
      cases missed
    · have behind := (List.pairwise_append.1 positives).2.1
      rcases List.mem_cons.1 late with rfl | later
      · exact Sample.precedes_refl other
      · exact (List.pairwise_cons.1 behind).1 other later

/-- It does not matter how the samples are listed. -/
theorem LeastCommon.of_mem_iff {lefts rights others more : List Sample} {found : Option Sample}
    (least : LeastCommon lefts rights found) (left : ∀ sample, sample ∈ others ↔ sample ∈ lefts)
    (right : ∀ sample, sample ∈ more ↔ sample ∈ rights) : LeastCommon others more found := by
  -- Being common and being least speak of membership only.
  cases found with
  | none =>
    intro sample leftIn rightIn
    exact least sample ((left sample).1 leftIn) ((right sample).1 rightIn)
  | some sample =>
    obtain ⟨leftIn, rightIn, smallest⟩ := least
    refine ⟨(left sample).2 leftIn, (right sample).2 rightIn, fun other leftOther rightOther => ?_⟩
    exact smallest other ((left other).1 leftOther) ((right other).1 rightOther)

/-- Two lists have one least common sample at most. -/
theorem LeastCommon.unique {lefts rights : List Sample} {found again : Option Sample}
    (least : LeastCommon lefts rights found) (other : LeastCommon lefts rights again) :
    found = again := by
  cases found with
  | none =>
    cases again with
    | none => rfl
    | some sample =>
      obtain ⟨leftIn, rightIn, _⟩ := other
      exact absurd rightIn (least sample leftIn)
  | some sample =>
    obtain ⟨leftIn, rightIn, smallest⟩ := least
    cases again with
    | none => exact absurd rightIn (other sample leftIn)
    | some second =>
      -- Each of two least ones precedes the other.
      obtain ⟨secondLeft, secondRight, alsoSmallest⟩ := other
      exact congrArg some (Sample.precedes_antisymm (smallest second secondLeft secondRight)
        (alsoSmallest sample leftIn rightIn))

variable {samples listed : SampleSet}

/-- Positive samples given in another order are sorted into the same list. -/
theorem positives_sort_eq (same : listed.positives.Perm samples.positives) :
    listed.sort.positives = samples.sort.positives :=
  (Sample.ascending_mergeSort _).mergeSort_eq (same.trans samples.perm_positives_sort.symm)

/-- A set is sorted into the one that has the same samples in ascending order. -/
theorem sort_eq {sorted : SampleSet} (alphabet : samples.alphabetSize = sorted.alphabetSize)
    (positives : samples.positives.Perm sorted.positives)
    (negatives : samples.negatives.Perm sorted.negatives)
    (ascending : Ascending sorted.positives ∧ Ascending sorted.negatives) :
    samples.sort = sorted := by
  -- A sorted rearrangement of a list is the list that sorting it gives.
  have first := ascending.1.mergeSort_eq positives
  have second := ascending.2.mergeSort_eq negatives
  obtain ⟨_, _, _, _, _⟩ := sorted
  cases alphabet
  cases first
  cases second
  rfl

/-- Sorted samples are not changed by sorting them again. -/
theorem sort_sort (samples : SampleSet) : samples.sort.sort = samples.sort :=
  sort_eq rfl (.refl _) (.refl _)
    ⟨Sample.ascending_mergeSort samples.positives, Sample.ascending_mergeSort samples.negatives⟩

/-- Sorted samples show the least sample that is labeled both ways, if there is one. -/
theorem conflict?_sort_spec (samples : SampleSet) :
    LeastCommon samples.positives samples.negatives samples.sort.conflict? := by
  have least := samples.sort.conflict?_spec (Sample.ascending_mergeSort samples.positives)
    (Sample.ascending_mergeSort samples.negatives)
  exact least.of_mem_iff (fun _ => mem_positives_sort.symm) (fun _ => mem_negatives_sort.symm)

/-- Sets with the same samples have the same conflict. -/
theorem conflict?_sort_eq (positives : ∀ sample, sample ∈ listed.positives ↔ sample ∈ samples.positives)
    (negatives : ∀ sample, sample ∈ listed.negatives ↔ sample ∈ samples.negatives) :
    listed.sort.conflict? = samples.sort.conflict? :=
  (listed.conflict?_sort_spec).unique (samples.conflict?_sort_spec.of_mem_iff positives negatives)

end SampleSet

end NfaInduction
