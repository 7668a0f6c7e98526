/-! A word packs the membership bits of sixty-four consecutive states. -/

namespace NfaInduction

/-- Sixty-four membership bits. -/
abbrev Word := UInt64

namespace Word

/-- Number of membership bits in a word. -/
def width : Nat := 64

/-- Number of words that hold the bits below `bits`. -/
def countFor (bits : Nat) : Nat := (bits + (width - 1)) / width

/-- The word whose only set bit is the one at `position`. -/
def bit (position : Nat) : Word :=
  -- A position beyond the word wraps around, and callers reduce it first.
  (1 : UInt64) <<< UInt64.ofNat position

/-- The word with every bit set. -/
def full : Word := 0xFFFFFFFFFFFFFFFF

/-- Whether the bit at `position` is set. -/
def hasBit (word : Word) (position : Nat) : Bool := word &&& bit position != 0

/-- Position of the lowest set bit of a nonzero word. -/
def lowest (word : Word) : Nat :=
  -- A word and its negation share exactly the lowest set bit.
  (word &&& (0 - word)).log2.toNat

/-- The word without its lowest set bit. -/
def dropLowest (word : Word) : Word :=
  -- Subtracting one turns the lowest set bit and the zeros under it over, and nothing above.
  word &&& (word - 1)

/-- Dropping a set bit makes a nonzero word smaller. -/
theorem dropLowest_lt {word : Word} (nonzero : ¬word = 0) :
    (dropLowest word).toNat < word.toNat := by
  -- The result is below the predecessor, which did not wrap around.
  have positive : 1 ≤ word := by
    rw [UInt64.le_iff_toNat_le]
    have : word.toNat ≠ 0 := fun zero => nonzero (UInt64.toNat_inj.1 zero)
    exact Nat.one_le_iff_ne_zero.2 this
  have below : (dropLowest word).toNat ≤ (word - 1).toNat := by
    rw [dropLowest, UInt64.toNat_and]
    exact Nat.and_le_right
  rw [UInt64.toNat_sub_of_le _ _ positive] at below
  rw [UInt64.le_iff_toNat_le] at positive
  have one : (1 : UInt64).toNat = 1 := rfl
  omega

/-- Positions of the set bits, ascending, each moved up by `base`. -/
def positionsFrom (base : Nat) (word : Word) : List Nat :=
  -- One bit is dropped at a time, so the word gets smaller.
  if word = 0 then []
  else (base + lowest word) :: positionsFrom base (dropLowest word)
termination_by word.toNat
decreasing_by
  rename_i nonzero
  exact dropLowest_lt nonzero

/-- The zero word has no set bit to list. -/
@[simp] theorem positionsFrom_zero (base : Nat) : positionsFrom base 0 = [] := by
  -- The listing stops at zero.
  rw [positionsFrom, if_pos rfl]

/-- A nonzero word lists its lowest set bit and then those of the rest. -/
theorem positionsFrom_of_ne_zero {word : Word} (base : Nat) (nonzero : ¬word = 0) :
    positionsFrom base word = (base + lowest word) :: positionsFrom base (dropLowest word) := by
  -- The listing goes on without the bit it has just listed.
  rw [positionsFrom, if_neg nonzero]

/-- Number of set bits. -/
def count (word : Word) : Nat :=
  if word = 0 then 0
  else count (dropLowest word) + 1
termination_by word.toNat
decreasing_by
  rename_i nonzero
  exact dropLowest_lt nonzero

end Word

end NfaInduction
