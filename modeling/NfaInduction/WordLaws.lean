import NfaInduction.Word

/-! The bits of combined words, the lowest set bit, and the positions of all set bits. -/

namespace NfaInduction

namespace Word

/-- A word with one bit inside it is a power of two. -/
theorem toBitVec_bit {position : Nat} (within : position < width) :
    (bit position).toBitVec = BitVec.twoPow 64 position := by
  -- The position is below sixty-four, so the shift does not wrap around.
  have small : position < 64 := within
  apply BitVec.eq_of_toNat_eq
  simp only [bit, UInt64.toBitVec_shiftLeft, UInt64.toBitVec_ofNat', BitVec.toNat_twoPow]
  simp [BitVec.toNat_shiftLeft, Nat.shiftLeft_eq]
  rw [Nat.mod_eq_of_lt (a := position) (by omega)]

/-- A bit of a word is its binary digit at that position. -/
theorem hasBit_eq_getLsbD {word : Word} {position : Nat} (within : position < width) :
    hasBit word position = word.toBitVec.getLsbD position := by
  -- Masking with a power of two leaves that power or nothing, and the power is not zero.
  have nonzero : BitVec.twoPow 64 position ≠ 0#64 := by
    intro zero
    have digit := congrArg (BitVec.getLsbD · position) zero
    have small : position < 64 := within
    simp [small] at digit
  rw [hasBit, Bool.eq_iff_iff, bne_iff_ne, ne_eq, ← UInt64.toBitVec_inj,
    UInt64.toBitVec_and, toBitVec_bit within, BitVec.and_twoPow]
  cases word.toBitVec.getLsbD position <;> simp [nonzero]

/-- The zero word has no set bit. -/
@[simp] theorem hasBit_zero (position : Nat) : hasBit 0 position = false := by
  -- Whatever the mask selects of zero is zero.
  simp [hasBit]

/-- A bit of a disjunction is set in either word. -/
theorem hasBit_or {left right : Word} {position : Nat} (within : position < width) :
    hasBit (left ||| right) position = (hasBit left position || hasBit right position) := by
  -- Digits of a disjunction are disjunctions of digits.
  simp [hasBit_eq_getLsbD within]

/-- A bit of a conjunction is set in both words. -/
theorem hasBit_and {left right : Word} {position : Nat} (within : position < width) :
    hasBit (left &&& right) position = (hasBit left position && hasBit right position) := by
  -- Digits of a conjunction are conjunctions of digits.
  simp [hasBit_eq_getLsbD within]

/-- A bit of an exclusive disjunction is set in exactly one word. -/
theorem hasBit_xor {left right : Word} {position : Nat} (within : position < width) :
    hasBit (left ^^^ right) position = (hasBit left position != hasBit right position) := by
  -- Digits of an exclusive disjunction are exclusive disjunctions of digits.
  simp [hasBit_eq_getLsbD within]

/-- A bit of a complement is set where the word has none. -/
theorem hasBit_not {word : Word} {position : Nat} (within : position < width) :
    hasBit (~~~word) position = !hasBit word position := by
  -- Every position inside the word is turned over.
  have small : position < 64 := within
  simp [hasBit_eq_getLsbD within, small]

/-- The full word has every bit. -/
theorem hasBit_full {position : Nat} (within : position < width) :
    hasBit full position := by
  -- It is the complement of zero.
  have complement : full = ~~~0 := by decide
  rw [complement, hasBit_not within, hasBit_zero]
  rfl

/-- A word with one bit has that bit only. -/
theorem hasBit_bit {position only : Nat} (within : position < width) (small : only < width) :
    hasBit (bit only) position = decide (position = only) := by
  -- A power of two has a single digit that is not zero.
  have inside : position < 64 := within
  simp [hasBit_eq_getLsbD within, toBitVec_bit small, inside]

/-- Two words with the same bits are the same. -/
theorem eq_of_hasBit {left right : Word}
    (same : ∀ position < width, hasBit left position = hasBit right position) : left = right := by
  -- All binary digits agree, one by one.
  apply UInt64.toBitVec_inj.1
  apply BitVec.eq_of_getLsbD_eq
  intro position within
  rw [← hasBit_eq_getLsbD within, ← hasBit_eq_getLsbD within]
  exact same position within

/-- A bit of a negation is turned over if the word has a lower set bit. -/
theorem hasBit_neg {word : Word} {position : Nat} (within : position < width) :
    hasBit (0 - word) position =
      (hasBit word position != decide (∃ lower, lower < position ∧ hasBit word lower)) := by
  -- Adding one to the complement carries through the zeros under the lowest set bit.
  have small : position < 64 := within
  have lowers : (∃ lower, lower < position ∧ hasBit word lower) ↔
      ∃ lower, lower < position ∧ word.toBitVec.getLsbD lower = true := by
    refine exists_congr fun lower => and_congr_right fun below => ?_
    rw [hasBit_eq_getLsbD (show lower < width by unfold width; omega)]
  rw [hasBit_eq_getLsbD within, UInt64.toBitVec_sub, UInt64.toBitVec_zero, BitVec.zero_sub]
  rw [BitVec.getLsbD_neg, hasBit_eq_getLsbD within]
  simp [lowers, small]

/-- A nonzero word has a set bit. -/
theorem exists_hasBit {word : Word} (nonzero : ¬word = 0) :
    ∃ position, position < width ∧ hasBit word position := by
  -- A word without set bits has the bits of zero.
  apply Classical.byContradiction
  intro none
  refine nonzero (eq_of_hasBit fun position within => ?_)
  rw [hasBit_zero]
  exact Bool.eq_false_iff.2 fun held => none ⟨position, within, held⟩

/-- A nonzero word has a set bit under which all bits are clear. -/
theorem exists_lowest {word : Word} (nonzero : ¬word = 0) :
    ∃ position, position < width ∧ hasBit word position ∧
      ∀ lower < position, ¬hasBit word lower := by
  -- Going down from any set bit to a lower one ends somewhere.
  obtain ⟨position, within, held⟩ := exists_hasBit nonzero
  induction position using Nat.strongRecOn with
  | ind position hypothesis =>
    by_cases smaller : ∃ lower, lower < position ∧ hasBit word lower
    · obtain ⟨lower, less, below⟩ := smaller
      exact hypothesis lower less (Nat.lt_trans less within) below
    · exact ⟨position, within, held, fun lower less below => smaller ⟨lower, less, below⟩⟩

/-- The lowest set bit is the set bit under which all bits are clear. -/
theorem lowest_eq {word : Word} {position : Nat} (within : position < width)
    (held : hasBit word position) (below : ∀ lower < position, ¬hasBit word lower) :
    lowest word = position := by
  -- Above that bit the negation is turned over, so the conjunction keeps that bit only.
  have isolated : word &&& (0 - word) = bit position := by
    refine eq_of_hasBit fun other small => ?_
    rw [hasBit_and small, hasBit_neg small, hasBit_bit small within]
    rcases Nat.lt_trichotomy other position with under | rfl | above
    · simp [below other under, Nat.ne_of_lt under]
    · simpa [held] using below
    · have : ∃ lower, lower < other ∧ hasBit word lower := ⟨position, above, held⟩
      simp [this, Nat.ne_of_gt above]
  have power : (bit position).toNat = 2 ^ position := by
    rw [← UInt64.toNat_toBitVec, toBitVec_bit within, BitVec.toNat_twoPow]
    exact Nat.mod_eq_of_lt (Nat.pow_lt_pow_right (by decide) within)
  have exact : lowest word = (bit position).toNat.log2 := by rw [lowest, isolated]; rfl
  rw [exact, power, Nat.log2_two_pow]

/-- The lowest set bit of a nonzero word lies inside it. -/
theorem lowest_lt {word : Word} (nonzero : ¬word = 0) : lowest word < width := by
  -- It is one of the positions of the word.
  obtain ⟨position, within, held, below⟩ := exists_lowest nonzero
  rwa [lowest_eq within held below]

/-- The lowest set bit of a nonzero word is set. -/
theorem hasBit_lowest {word : Word} (nonzero : ¬word = 0) : hasBit word (lowest word) := by
  -- It was found among the set bits.
  obtain ⟨_, within, held, below⟩ := exists_lowest nonzero
  rwa [lowest_eq within held below]

/-- No set bit lies under the lowest one. -/
theorem lowest_le {word : Word} {position : Nat} (held : hasBit word position) :
    lowest word ≤ position := by
  -- A set bit under it would contradict that all of those are clear.
  have nonzero : ¬word = 0 := by
    rintro rfl
    simp at held
  obtain ⟨least, small, first, below⟩ := exists_lowest nonzero
  rw [lowest_eq small first below]
  exact Nat.le_of_not_lt fun less => below position less held

/-- Dropping the lowest set bit clears it and nothing else. -/
theorem hasBit_dropLowest {word : Word} {position : Nat} (within : position < width) :
    hasBit (dropLowest word) position =
      (hasBit word position && decide (position ≠ lowest word)) := by
  -- The predecessor of a word is the complement of its negation.
  have predecessor : word - 1 = ~~~(0 - word) := by
    apply UInt64.toBitVec_inj.1
    simp [BitVec.not_neg, BitVec.sub_eq_add_neg]
  rw [dropLowest, predecessor, hasBit_and within, hasBit_not within, hasBit_neg within]
  cases held : hasBit word position with
  | false => simp
  | true =>
    have least := lowest_le held
    have nonzero : ¬word = 0 := by
      rintro rfl
      simp at held
    -- A set bit survives exactly if there is a lower one.
    by_cases same : position = lowest word
    · have none : ¬∃ lower, lower < position ∧ hasBit word lower := by
        rintro ⟨lower, less, below⟩
        have := lowest_le below
        omega
      rw [decide_eq_false none]
      simp [same]
    · have some : ∃ lower, lower < position ∧ hasBit word lower :=
        ⟨lowest word, by omega, hasBit_lowest nonzero⟩
      simp [some, same]

/-- The listed positions are those of the set bits, moved up. -/
theorem mem_positionsFrom {base : Nat} {word : Word} {state : Nat} :
    state ∈ positionsFrom base word ↔
      ∃ position, position < width ∧ hasBit word position ∧ state = base + position := by
  -- Each step lists the lowest set bit and goes on with exactly the others.
  fun_induction positionsFrom base word with
  | case1 => simp
  | case2 word nonzero rest =>
    rw [List.mem_cons, rest]
    constructor
    · rintro (rfl | ⟨position, within, held, rfl⟩)
      · exact ⟨lowest word, lowest_lt nonzero, hasBit_lowest nonzero, rfl⟩
      · rw [hasBit_dropLowest within] at held
        exact ⟨position, within, (Bool.and_eq_true_iff.1 held).1, rfl⟩
    · rintro ⟨position, within, held, rfl⟩
      by_cases same : position = lowest word
      · exact .inl (by rw [same])
      · exact .inr ⟨position, within, by simp [hasBit_dropLowest within, held, same], rfl⟩

/-- The positions are listed in ascending order, each of them once. -/
theorem pairwise_positionsFrom (base : Nat) (word : Word) :
    (positionsFrom base word).Pairwise (· < ·) := by
  -- Every later position is a set bit other than the lowest one.
  fun_induction positionsFrom base word with
  | case1 => exact .nil
  | case2 word nonzero rest =>
    refine .cons (fun state member => ?_) rest
    obtain ⟨position, within, held, rfl⟩ := mem_positionsFrom.1 member
    rw [hasBit_dropLowest within, Bool.and_eq_true, decide_eq_true_eq] at held
    have := lowest_le held.1
    omega

/-- There are as many positions as set bits are counted. -/
theorem length_positionsFrom (base : Nat) (word : Word) :
    (positionsFrom base word).length = count word := by
  -- Both drop the lowest set bit in each step.
  fun_induction count word with
  | case1 => simp
  | case2 word nonzero rest => rw [positionsFrom_of_ne_zero base nonzero, List.length_cons, rest]

end Word

end NfaInduction
