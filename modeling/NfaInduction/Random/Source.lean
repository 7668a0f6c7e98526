/-! A source of random words, and numbers and orders drawn from it without bias. -/

namespace NfaInduction

/-- A state from which words of thirty-two random bits are drawn one after the other. -/
class WordSource (source : Type) where
  /-- The next word and the state after it. -/
  next : source → UInt32 × source
  /-- How many words in a row may be rejected before one is taken as it is. -/
  patience : source → Nat

namespace WordSource

variable {source : Type} [WordSource source]

/-- The largest low half of a product that is accepted when a number below `range` is drawn. -/
def zone (range : Nat) : Nat :=
  -- The multiple of the range that fills thirty-two bits, so that every number is as likely.
  (range <<< (31 - range.log2)) - 1

/-- A number below `range`, with so many words left that may be rejected. -/
def drawWithin (range : Nat) : Nat → source → Nat × source
  | 0, state =>
    let (word, state) := next state
    (word.toNat * range / UInt32.size, state)
  | patience + 1, state =>
    let (word, state) := next state
    let product := word.toNat * range
    -- The high half of the product is the number, unless the low half lies outside the zone.
    if product % UInt32.size ≤ zone range then (product / UInt32.size, state)
    else drawWithin range patience state

/-- A number below `range`. -/
def draw (range : Nat) (state : source) : Nat × source := drawWithin range (patience state) state

/-- Exchanges each item from position `last` down with one that lies no later. -/
def shuffleFrom {α : Type} : (last : Nat) → Array α → source → Array α × source
  | 0, items, state => (items, state)
  | last + 1, items, state =>
    let (chosen, state) := draw (last + 2) state
    shuffleFrom last (items.swapIfInBounds (last + 1) chosen) state

/-- The items in an order that is drawn at random. -/
def shuffle {α : Type} (items : List α) (state : source) : List α × source :=
  let (shuffled, state) := shuffleFrom (items.length - 1) items.toArray state
  (shuffled.toList, state)

/-- Exchanging items keeps all of them. -/
theorem swapIfInBounds_perm {α : Type} (items : Array α) (first second : Nat) :
    (items.swapIfInBounds first second).Perm items := by
  -- Items are exchanged in place, or nothing happens at all.
  rw [Array.swapIfInBounds]
  split
  · split
    · exact Array.swap_perm ..
    · exact .refl items
  · exact .refl items

/-- The exchanges of a shuffle keep all items. -/
theorem shuffleFrom_perm {α : Type} (last : Nat) (items : Array α) (state : source) :
    (shuffleFrom last items state).1.Perm items := by
  -- Each exchange does.
  induction last generalizing items state with
  | zero => exact .refl items
  | succ last hypothesis => exact (hypothesis _ _).trans (swapIfInBounds_perm ..)

/-- A shuffle puts the items in another order. -/
theorem shuffle_perm {α : Type} (items : List α) (state : source) :
    (shuffle items state).1.Perm items := by
  -- The exchanges keep all items.
  have exchanged := shuffleFrom_perm (items.length - 1) items.toArray state
  simpa [shuffle] using Array.perm_iff_toList_perm.1 exchanged

end WordSource

end NfaInduction
