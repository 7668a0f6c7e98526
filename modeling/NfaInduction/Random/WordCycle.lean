import NfaInduction.Random.Source

/-! A word cycle repeats the same words forever and counts how many were drawn. -/

namespace NfaInduction

/-- Words that are drawn from the first to the last and then again from the first. -/
structure WordCycle where
  /-- All words. -/
  words : List UInt32
  /-- Words left before the cycle starts over. -/
  upcoming : List UInt32
  /-- Number of words drawn so far. -/
  drawn : Nat
deriving DecidableEq

namespace WordCycle

/-- The cycle of some words before its first draw. -/
def ofList (words : List UInt32) : WordCycle := ⟨words, words, 0⟩

/-- The next word and the cycle after it. -/
def next (cycle : WordCycle) : UInt32 × WordCycle :=
  let upcoming := if cycle.upcoming.isEmpty then cycle.words else cycle.upcoming
  (upcoming.headD 0, { cycle with upcoming := upcoming.tail, drawn := cycle.drawn + 1 })

end WordCycle

/-- A cycle whose words have all been rejected once would only reject them again. -/
instance : WordSource WordCycle where
  next := WordCycle.next
  patience cycle := cycle.words.length

end NfaInduction
