/-! A sample is a word of symbols, and shorter samples come before longer ones. -/

namespace NfaInduction

/-- A symbol of the alphabet, which holds the numbers below its size. -/
abbrev Symbol := UInt32

/-- A sequence of symbols. -/
abbrev Sample := List Symbol

namespace Sample

/-- Whether every symbol of a sample belongs to the alphabet. -/
def Within (alphabetSize : Nat) (sample : Sample) : Prop :=
  ∀ symbol ∈ sample, symbol.toNat < alphabetSize

/-- A sample is checked against the alphabet symbol by symbol. -/
instance (alphabetSize : Nat) (sample : Sample) : Decidable (sample.Within alphabetSize) :=
  List.decidableBAll (fun symbol : Symbol => symbol.toNat < alphabetSize) sample

/-- The first symbol of a sample and the symbols behind it belong to the alphabet. -/
theorem Within.of_cons {alphabetSize : Nat} {symbol : Symbol} {rest : Sample}
    (within : Sample.Within alphabetSize (symbol :: rest)) :
    symbol.toNat < alphabetSize ∧ rest.Within alphabetSize :=
  List.forall_mem_cons.1 within

/-- Shorter samples first, and those of one length in lexicographic order. -/
def order (left right : Sample) : Ordering :=
  (compare left.length right.length).then (compare left right)

/-- Whether a sample comes no later than another. -/
def precedes (left right : Sample) : Bool := (order left right).isLE

end Sample

/-- What is known about a sample. -/
inductive Label where
  /-- The sample belongs to the language. -/
  | positive
  /-- The sample does not belong to the language. -/
  | negative
deriving DecidableEq

end NfaInduction
