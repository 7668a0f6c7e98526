import NfaInduction.Capacity
import NfaInduction.Word

/-! Capacities are blocks doubled some times, and smaller matrices never need more words. -/

namespace NfaInduction

namespace Word

/-- Room for more states takes at least as many words. -/
theorem countFor_le {fewer more : Nat} (ordered : fewer ≤ more) :
    countFor fewer ≤ countFor more := by
  -- Rounding up to whole words keeps the order.
  unfold countFor
  exact Nat.div_le_div_right (by omega)

/-- Whole words hold every state below the number they were counted for. -/
theorem le_countFor_mul (states : Nat) : states ≤ countFor states * width := by
  -- Rounding goes up, by less than a word.
  unfold countFor width
  omega

end Word

namespace Capacity

/-- A capacity that doubling from one block reaches without passing the limit. -/
def Reached (capacity : Nat) : Prop := ∃ doublings ≤ 12, capacity = block <<< doublings

/-- One block is reached without doubling. -/
theorem reached_block : Reached block := ⟨0, by decide, rfl⟩

/-- A capacity that is reached lies between one block and the limit. -/
theorem Reached.bounds {capacity : Nat} (reached : Reached capacity) :
    block ≤ capacity ∧ capacity ≤ maxStates := by
  -- There are thirteen such capacities.
  have all : ∀ doublings ≤ 12, block ≤ block <<< doublings ∧ block <<< doublings ≤ maxStates := by
    decide
  obtain ⟨doublings, few, rfl⟩ := reached
  exact all doublings few

/-- A capacity that is reached consists of whole blocks. -/
theorem Reached.block_dvd {capacity : Nat} (reached : Reached capacity) :
    ∃ blocks, 0 < blocks ∧ capacity = blocks * block := by
  -- The first block is doubled together with all others.
  have all : ∀ doublings ≤ 12, 0 < 1 <<< doublings ∧
      block <<< doublings = (1 <<< doublings) * block := by decide
  obtain ⟨doublings, few, rfl⟩ := reached
  exact ⟨1 <<< doublings, all doublings few⟩

/-- A capacity below the limit can be doubled once more. -/
theorem Reached.double {capacity : Nat} (reached : Reached capacity) (below : capacity < maxStates) :
    Reached (capacity * 2) := by
  -- The last of them is the limit itself.
  obtain ⟨doublings, few, rfl⟩ := reached
  rcases Nat.lt_or_eq_of_le few with more | last
  · refine ⟨doublings + 1, by omega, ?_⟩
    rw [Nat.shiftLeft_succ, Nat.mul_comm]
  · subst last
    exact absurd below (by decide)

/-- Doubling until a state fits ends at a capacity that is reached, and the state fits there. -/
theorem Reached.doubled {capacity state : Nat} (reached : Reached capacity)
    (admitted : state < maxStates) :
    Reached (doubled capacity state) ∧ capacity ≤ doubled capacity state ∧
      state < doubled capacity state := by
  -- Only a capacity that the state does not fit in is doubled.
  fun_induction Capacity.doubled capacity state with
  | case1 capacity short hypothesis =>
    obtain ⟨ends, grows, fits⟩ := hypothesis (reached.double (by omega))
    exact ⟨ends, by omega, fits⟩
  | case2 capacity large =>
    have positive : 0 < block := by decide
    have := reached.bounds
    exact ⟨reached, Nat.le_refl _, by omega⟩

/-- A capacity that is reached needs no alignment. -/
theorem Reached.aligned {capacity : Nat} (reached : Reached capacity) :
    aligned capacity = capacity := by
  -- It consists of whole blocks already, and of one block at least.
  obtain ⟨blocks, positive, rfl⟩ := reached.block_dvd
  have whole : (blocks * block + (block - 1)) / block = blocks := by
    unfold block
    omega
  rw [Capacity.aligned, whole, Nat.max_eq_left positive]

/-- A capacity that is reached consists of whole words. -/
theorem Reached.countFor_mul {capacity : Nat} (reached : Reached capacity) :
    Word.countFor capacity * Word.width = capacity := by
  -- A block is four words.
  obtain ⟨blocks, _, rfl⟩ := reached.block_dvd
  unfold Word.countFor Word.width block
  omega

/-- A matrix is addressable exactly if its rows and its words can be counted. -/
theorem isSome_tableWords {alphabetSize capacity : Nat} :
    (tableWords alphabetSize capacity).isSome ↔
      capacity * alphabetSize < UInt64.size ∧
        capacity * alphabetSize * Word.countFor capacity < UInt64.size := by
  -- Both products are tested, the number of rows first.
  rw [tableWords]
  by_cases rows : capacity * alphabetSize < UInt64.size
  · by_cases words : capacity * alphabetSize * Word.countFor capacity < UInt64.size
    · simp [addressable, rows, words]
    · simp [addressable, rows, words]
  · simp [addressable, rows]

/-- A smaller matrix is addressable if a larger one is. -/
theorem isSome_tableWords_of_le {alphabetSize fewer more : Nat} (ordered : fewer ≤ more)
    (large : (tableWords alphabetSize more).isSome) : (tableWords alphabetSize fewer).isSome := by
  -- It has no more rows, and no more words in a row.
  obtain ⟨rows, words⟩ := isSome_tableWords.1 large
  have fewerRows := Nat.mul_le_mul_right alphabetSize ordered
  have fewerWords := Nat.mul_le_mul fewerRows (Word.countFor_le ordered)
  exact isSome_tableWords.2 ⟨by omega, by omega⟩

/-- A grown capacity is one block at least, so that its rows have words. -/
theorem countFor_grown_pos (states : Nat) : 0 < Word.countFor (grown states) := by
  -- There is one block at least, which takes some words.
  have large : block ≤ grown states := Nat.le_max_right _ _
  unfold block at large
  unfold Word.countFor Word.width
  omega

/-- The words of an addressable matrix are those of all its rows. -/
theorem tableWords_eq_some {alphabetSize capacity words : Nat} (filled : 0 < Word.countFor capacity) :
    tableWords alphabetSize capacity = some words ↔
      words = capacity * alphabetSize * Word.countFor capacity ∧ words < UInt64.size := by
  -- With a word in each row there are no more rows than words.
  have rows := Nat.le_mul_of_pos_right (capacity * alphabetSize) filled
  simp only [tableWords, addressable, Option.bind_eq_bind, Option.bind_eq_some_iff,
    Option.ite_none_right_eq_some, Option.some.injEq]
  constructor
  · intro counted
    obtain ⟨_, ⟨_, rfl⟩, below, rfl⟩ := counted
    exact ⟨rfl, below⟩
  · intro counted
    obtain ⟨rfl, below⟩ := counted
    exact ⟨_, ⟨by omega, rfl⟩, below, rfl⟩

/-- An automaton takes eight bytes for each word of a direction, if these can be counted. -/
theorem matrixBytes_eq_some {alphabetSize states bytes : Nat} :
    matrixBytes alphabetSize states = some bytes ↔ states ≤ maxStates ∧
      bytes = grown states * alphabetSize * Word.countFor (grown states) * 8 ∧
      bytes < UInt64.size := by
  -- Each product is counted if the next one is, so that only the last bound is left.
  simp only [matrixBytes, addressable, Option.ite_none_right_eq_some, Option.bind_eq_bind,
    Option.bind_eq_some_iff, Option.some.injEq, tableWords_eq_some (countFor_grown_pos states)]
  constructor
  · intro counted
    obtain ⟨admitted, _, ⟨rfl, _⟩, below, rfl⟩ := counted
    exact ⟨admitted, rfl, below⟩
  · intro counted
    obtain ⟨admitted, rfl, below⟩ := counted
    exact ⟨admitted, _, ⟨rfl, by omega⟩, below, rfl⟩

/-- The limit is a power of two, so nothing is added to it. -/
theorem grown_maxStates : grown maxStates = maxStates := by
  decide +kernel

/-- Where an automaton can be counted in bytes, the number of words it grows to can be counted. -/
theorem isSome_tableWords_grown {alphabetSize states : Nat}
    (counted : (matrixBytes alphabetSize states).isSome) :
    states ≤ maxStates ∧ (tableWords alphabetSize (grown states)).isSome := by
  -- Bytes are computed from words, and refused above the limit.
  obtain ⟨bytes, found⟩ := Option.isSome_iff_exists.1 counted
  obtain ⟨admitted, rfl, below⟩ := matrixBytes_eq_some.1 found
  have words : tableWords alphabetSize (grown states) =
      some (grown states * alphabetSize * Word.countFor (grown states)) :=
    (tableWords_eq_some (countFor_grown_pos states)).2 ⟨rfl, by omega⟩
  exact ⟨admitted, Option.isSome_iff_exists.2 ⟨_, words⟩⟩

/-- An alphabet whose relation is addressable at the limit has an addressable matrix at each capacity. -/
theorem isSome_tableWords_of_matrixBytes {alphabetSize capacity : Nat} (below : capacity ≤ maxStates)
    (full : (matrixBytes alphabetSize maxStates).isSome) :
    (tableWords alphabetSize capacity).isSome := by
  -- A smaller capacity takes fewer words than the largest one.
  have largest := (isSome_tableWords_grown full).2
  rw [grown_maxStates] at largest
  exact isSome_tableWords_of_le below largest

/-- A function doubles powers below a number, and ends with the first that is not below it. -/
def Doubles (number : Nat) (power : (start : Nat) → 0 < start → Nat) : Prop :=
  ∀ start positive, power start positive =
    if start < number then power (start * 2) (Nat.mul_pos positive (by decide)) else start

/-- A function that doubles powers below a number does not end below it. -/
theorem Doubles.le {number : Nat} {power : (start : Nat) → 0 < start → Nat}
    (doubles : Doubles number power) (start : Nat) (positive : 0 < start) :
    number ≤ power start positive := by
  -- Each doubling comes closer to the number.
  induction gap : number - start using Nat.strongRecOn generalizing start with
  | _ gap ih =>
    rw [doubles]
    split
    · exact ih _ (by omega) (start * 2) _ rfl
    · omega

/-- Of two different powers of two, the larger is the double of the smaller at least. -/
theorem double_le_of_isPowerOfTwo {smaller larger : Nat} (first : smaller.isPowerOfTwo)
    (second : larger.isPowerOfTwo) (below : smaller < larger) : smaller * 2 ≤ larger := by
  -- Of two powers the exponents are ordered as the powers are.
  obtain ⟨exponent, rfl⟩ := first
  obtain ⟨highest, rfl⟩ := second
  have ordered := (Nat.pow_lt_pow_iff_right (by decide : 1 < 2)).1 below
  rw [← Nat.pow_succ]
  exact Nat.pow_le_pow_right (by decide) ordered

/-- A function that doubles powers below a number does not pass a power of two that is not below it. -/
theorem Doubles.le_limit {number limit : Nat} {power : (start : Nat) → 0 < start → Nat}
    (doubles : Doubles number power) (limited : limit.isPowerOfTwo) (room : number ≤ limit)
    {start : Nat} (positive : 0 < start) (powered : start.isPowerOfTwo) (below : start ≤ limit) :
    power start positive ≤ limit := by
  -- The distance to the number shrinks, and a power below the limit has room to be doubled.
  induction gap : number - start using Nat.strongRecOn generalizing start with
  | _ gap ih =>
    rw [doubles]
    split
    · have doubled := double_le_of_isPowerOfTwo powered limited (by omega)
      obtain ⟨exponent, rfl⟩ := powered
      exact ih _ (by omega) _ ⟨exponent + 1, (Nat.pow_succ ..).symm⟩ doubled rfl
    · exact below

/-- The next power of two is found by doubling, starting from one. -/
theorem exists_doubles (number : Nat) : ∃ power : (start : Nat) → 0 < start → Nat,
    Doubles number power ∧ number.nextPowerOfTwo = power 1 (by decide) := by
  unfold Nat.nextPowerOfTwo
  refine ⟨_, fun start positive => ?_, rfl⟩
  -- Its recursion has no name outside the library, and is known by its fixed point only.
  with_unfolding_all
    exact @WellFounded.Nat.fix_eq (PSigma fun start => 0 < start) (fun _ => Nat)
      (fun reached => number - reached.1) _ ⟨start, positive⟩

/-- The next power of two is not below the number. -/
theorem le_nextPowerOfTwo (number : Nat) : number ≤ number.nextPowerOfTwo := by
  -- Doubling ends at the number or above it.
  obtain ⟨power, doubles, same⟩ := exists_doubles number
  rw [same]
  exact doubles.le 1 _

/-- No power of two that is not below the number comes before the next one. -/
theorem nextPowerOfTwo_le {number limit : Nat} (limited : limit.isPowerOfTwo)
    (room : number ≤ limit) : number.nextPowerOfTwo ≤ limit := by
  -- Doubling starts with one and does not go beyond the limit.
  obtain ⟨power, doubles, same⟩ := exists_doubles number
  rw [same]
  exact doubles.le_limit limited room _ Nat.isPowerOfTwo_one (Nat.pos_of_isPowerOfTwo limited)

/-- A grown capacity has room for the states it was grown for. -/
theorem le_grown (states : Nat) : states ≤ grown states :=
  Nat.le_trans (le_nextPowerOfTwo states) (Nat.le_max_left _ _)

/-- A grown capacity is a power of two. -/
theorem isPowerOfTwo_grown (states : Nat) : (grown states).isPowerOfTwo := by
  -- So are both numbers of which it is the larger.
  rcases Nat.le_total states.nextPowerOfTwo block with smaller | larger
  · exact ⟨8, Nat.max_eq_right smaller⟩
  · rw [grown, Nat.max_eq_left larger]
    exact Nat.isPowerOfTwo_nextPowerOfTwo states

/-- A capacity that is reached is a power of two. -/
theorem Reached.isPowerOfTwo {capacity : Nat} (reached : Reached capacity) :
    capacity.isPowerOfTwo := by
  -- One block is one already, and doubling keeps it one.
  obtain ⟨doublings, _, rfl⟩ := reached
  refine ⟨8 + doublings, ?_⟩
  rw [Nat.shiftLeft_eq, Nat.pow_add, block]

/-- Doubling a power of two until a state fits does not pass a power of two that the state fits in. -/
theorem doubled_le_of_isPowerOfTwo {capacity state limit : Nat} (powered : capacity.isPowerOfTwo)
    (limited : limit.isPowerOfTwo) (below : capacity ≤ limit) (fits : state < limit) :
    doubled capacity state ≤ limit := by
  -- The induction follows the doubling, and a power below the limit has room for it.
  fun_induction doubled capacity state with
  | case1 capacity short ih =>
    have doubled := double_le_of_isPowerOfTwo powered limited (Nat.lt_of_le_of_lt short.2 fits)
    obtain ⟨exponent, rfl⟩ := powered
    exact ih ⟨exponent + 1, (Nat.pow_succ ..).symm⟩ doubled
  | case2 capacity large => exact below

/-- A capacity doubled for one of some states is no larger than what all of them together call for. -/
theorem Reached.doubled_le_grown {capacity state states : Nat} (reached : Reached capacity)
    (short : capacity ≤ state) (member : state < states) :
    Capacity.doubled capacity state ≤ grown states := by
  have room := le_grown states
  exact doubled_le_of_isPowerOfTwo reached.isPowerOfTwo (isPowerOfTwo_grown states) (by omega) (by omega)

/-- States have room in a capacity that is reached exactly if all they call for is no more than it. -/
theorem Reached.grown_le_iff {capacity states : Nat} (reached : Reached capacity) :
    grown states ≤ capacity ↔ states ≤ capacity := by
  -- A capacity is a power of two already, with one block at least.
  constructor
  · exact Nat.le_trans (le_grown states)
  · intro room
    exact Nat.max_le.2 ⟨nextPowerOfTwo_le reached.isPowerOfTwo room, reached.bounds.1⟩

/-- What some states call for is a block doubled some times. -/
theorem exists_grown_eq (states : Nat) : ∃ doublings, grown states = block <<< doublings := by
  -- It is a power of two, and no smaller than one block, which is one as well.
  obtain ⟨exponent, power⟩ := isPowerOfTwo_grown states
  have lower : 8 ≤ exponent := by
    refine (Nat.pow_le_pow_iff_right (by decide : 1 < 2)).1 ?_
    rw [← power]
    exact Nat.le_max_right _ _
  have split := Nat.pow_add 2 8 (exponent - 8)
  rw [Nat.add_sub_of_le lower] at split
  refine ⟨exponent - 8, ?_⟩
  rw [power, Nat.shiftLeft_eq]
  exact split

/-- What some states call for consists of whole words. -/
theorem countFor_grown (states : Nat) : Word.countFor (grown states) = grown states / Word.width := by
  -- A block has whole words, and so has every doubling of it.
  obtain ⟨doublings, same⟩ := exists_grown_eq states
  rw [same, Nat.shiftLeft_eq]
  unfold Word.countFor Word.width block
  omega

/-- More states call for at least as much room. -/
theorem grown_le_grown {fewer more : Nat} (ordered : fewer ≤ more) : grown fewer ≤ grown more := by
  have room := Nat.le_trans ordered (le_grown more)
  exact Nat.max_le.2 ⟨nextPowerOfTwo_le (isPowerOfTwo_grown more) room, Nat.le_max_right _ _⟩

/-- Of two numbers of states, the larger one decides what they call for. -/
theorem grown_max (first second : Nat) :
    grown (max first second) = max (grown first) (grown second) := by
  -- The larger number decides on both sides.
  rcases Nat.le_total first second with fewer | more
  · rw [Nat.max_eq_right fewer, Nat.max_eq_right (grown_le_grown fewer)]
  · rw [Nat.max_eq_left more, Nat.max_eq_left (grown_le_grown more)]

/-- Where a state has no room, doubling until it fits leads to what it calls for. -/
theorem Reached.doubled_eq_grown {capacity state : Nat} (reached : Reached capacity)
    (short : capacity ≤ state) (admitted : state < maxStates) :
    Capacity.doubled capacity state = grown (state + 1) := by
  -- Doubling ends at a capacity with room for the state, and at the first of these.
  obtain ⟨ends, _, fits⟩ := reached.doubled admitted
  exact Nat.le_antisymm (reached.doubled_le_grown short (Nat.lt_succ_self state))
    (ends.grown_le_iff.2 fits)

end Capacity

end NfaInduction
