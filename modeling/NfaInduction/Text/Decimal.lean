/-! Decimals with a fixed number of places, rounded from the exact value of a binary number. -/

namespace NfaInduction

namespace Text

/-- The nearest integer to a quotient, and of two equally near ones the even one. -/
def roundDiv (numerator denominator : Nat) : Nat :=
  let quotient := numerator / denominator
  let twice := 2 * (numerator % denominator)
  if twice < denominator then quotient
  else if denominator < twice then quotient + 1
  -- In the middle an odd quotient is rounded up and an even one down.
  else quotient + quotient % 2

/-- Bits of the fraction of a double. -/
def fractionBits : Nat := 52

/-- A finite nonnegative double as a numerator over a power of two. -/
def exactParts (value : Float) : Nat × Nat :=
  let bits := value.toBits.toNat
  let fraction := bits % (1 <<< fractionBits)
  let exponent := (bits >>> fractionBits) % 2048
  -- Below the least normal exponent there is no implicit leading bit.
  let significand := if exponent = 0 then fraction else (1 <<< fractionBits) + fraction
  let scale := max exponent 1
  (significand <<< (scale - 1075), 1 <<< (1075 - scale))

/-- A finite nonnegative double with two decimal places. -/
def twoPlaces (value : Float) : String :=
  let (numerator, denominator) := exactParts value
  let hundredths := roundDiv (numerator * 100) denominator
  let cents := hundredths % 100
  -- The second place is written even if the first one is zero.
  let zero := if cents < 10 then "0" else ""
  s!"{hundredths / 100}.{zero}{cents}"

end Text

end NfaInduction
