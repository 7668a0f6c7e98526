import NfaInduction.Random.Source

/-! A key stream stretches a seed to random words by scrambling a counter under a key. -/

namespace NfaInduction

namespace KeyStream

/-- Sixteen words that are scrambled together. -/
abbrev Block := Vector UInt32 16

/-- A word turned left by a number of bits between zero and its width. -/
def rotateLeft (word amount : UInt32) : UInt32 := (word <<< amount) ||| (word >>> (32 - amount))

/-- Adds one word to another, and a third one turned by what the sum changes in it. -/
def mix (block : Block) (sum addend turned : Fin 16) (amount : UInt32) : Block :=
  let block := block.set sum (block[sum] + block[addend])
  block.set turned (rotateLeft (block[turned] ^^^ block[sum]) amount)

/-- Scrambles four words of a block. -/
def quarterRound (block : Block) (a b c d : Fin 16) : Block :=
  mix (mix (mix (mix block a b d 16) c d b 12) a b d 8) c d b 7

/-- Scrambles the columns and then the diagonals of a block. -/
def doubleRound (block : Block) : Block :=
  -- First the columns.
  let block := quarterRound block 0 4 8 12
  let block := quarterRound block 1 5 9 13
  let block := quarterRound block 2 6 10 14
  let block := quarterRound block 3 7 11 15
  -- Then the diagonals, which mix what the columns kept apart.
  let block := quarterRound block 0 5 10 15
  let block := quarterRound block 1 6 11 12
  let block := quarterRound block 2 7 8 13
  quarterRound block 3 4 9 14

/-- Number of double rounds that a block goes through. -/
def doubleRounds : Nat := 6

/-- The block that a key and a counter start from. -/
def start (key : Vector UInt32 8) (counter : UInt64) : Block :=
  let constants : Vector UInt32 4 := #v[0x61707865, 0x3320646e, 0x79622d32, 0x6b206574]
  let counters : Vector UInt32 4 := #v[counter.toUInt32, (counter >>> 32).toUInt32, 0, 0]
  constants ++ key ++ counters

/-- The sixteen random words of a key and a counter. -/
def block (key : Vector UInt32 8) (counter : UInt64) : Block :=
  let fresh := start key counter
  -- The scrambling alone could be undone, and adding where it started from prevents that.
  fresh.zipWith (· + ·) (Nat.repeat doubleRound doubleRounds fresh)

/-- One step of the generator that turns a seed into a key: the next state and its word. -/
def seedStep (state : UInt64) : UInt64 × UInt32 :=
  let state := state * 6364136223846793005 + 11634580027462260723
  -- The word is turned by an amount that the state itself decides.
  let word := (((state >>> 18) ^^^ state) >>> 27).toUInt32
  let amount := (state >>> 59).toUInt32
  (state, (word >>> amount) ||| (word <<< (32 - amount)))

/-- The words of a key from a state of the generator on. -/
def seedWords : Nat → UInt64 → List UInt32
  | 0, _ => []
  | count + 1, state =>
    let (state, word) := seedStep state
    word :: seedWords count state

/-- The key that a seed stands for. -/
def keyOfSeed (seed : UInt64) : Vector UInt32 8 :=
  let words := (seedWords 8 seed).toArray
  Vector.ofFn fun index => words.getD index 0

end KeyStream

/-- A place in the stream of random words of a key. -/
structure KeyStream where
  /-- The key. -/
  key : Vector UInt32 8
  /-- Counter of the next block. -/
  counter : UInt64
  /-- Words of the current block that were not drawn yet. -/
  upcoming : List UInt32

namespace KeyStream

/-- The stream of a seed before its first draw. -/
def ofSeed (seed : UInt64) : KeyStream := ⟨keyOfSeed seed, 0, []⟩

/-- The next word and the stream after it. -/
def next (stream : KeyStream) : UInt32 × KeyStream :=
  match stream.upcoming with
  | word :: rest => (word, { stream with upcoming := rest })
  | [] =>
    -- All words are used up, and the next block is scrambled.
    let words := (block stream.key stream.counter).toList
    (words.headD 0, { stream with counter := stream.counter + 1, upcoming := words.tail })

end KeyStream

/-- More than half of all words are accepted, so patience hardly ever runs out. -/
instance : WordSource KeyStream where
  next := KeyStream.next
  patience _ := 1024

end NfaInduction
