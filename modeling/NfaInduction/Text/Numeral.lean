/-! Numerals are ASCII digits behind an optional sign, with a bound on the number they name. -/

namespace NfaInduction

namespace Text

/-- The number that a nonempty run of digits names. -/
def digitsValue? (digits : List Char) : Option Nat :=
  if !digits.isEmpty && digits.all Char.isDigit then some (Nat.ofDigitChars 10 digits 0) else none

/-- A text without a plus sign in front. -/
def withoutPlus : List Char → List Char
  | '+' :: digits => digits
  | digits => digits

/-- The number below `bound` that digits behind an optional plus sign name. -/
def natural? (bound : Nat) (field : String) : Option Nat :=
  (digitsValue? (withoutPlus field.toList)).filter (· < bound)

/-- The integer from `-bound` up to below `bound` that digits behind an optional sign name. -/
def integer? (bound : Nat) (field : String) : Option Int :=
  match field.toList with
  | '-' :: digits => ((digitsValue? digits).filter (· ≤ bound)).map fun size => -(size : Int)
  | _ => (natural? bound field).map fun size => (size : Int)

/-- A number of at most sixty-four bits. -/
def size? (field : String) : Option Nat := natural? UInt64.size field

/-- A number of at most thirty-two bits. -/
def symbol? (field : String) : Option UInt32 := (natural? UInt32.size field).map UInt32.ofNat

/-- The decimal digits of a number, without leading zeros. -/
def numeral (number : Nat) : String := String.ofList (Nat.toDigits 10 number)

/-- The digits of a number name it. -/
theorem digitsValue?_toDigits (number : Nat) :
    digitsValue? (Nat.toDigits 10 number) = some number := by
  -- There is at least one digit, and all of them are.
  have filled : (Nat.toDigits 10 number).isEmpty = false := by
    simp
  have digits : (Nat.toDigits 10 number).all Char.isDigit := by
    rw [List.all_eq_true]
    exact fun _ member => Nat.isDigit_of_mem_toDigits (by decide) (by decide) member
  rw [digitsValue?, filled, digits, Nat.ofDigitChars_ten_toDigits]
  rfl

/-- A text that starts with no plus sign is left as it is. -/
theorem withoutPlus_of_isDigit {digits : List Char} (all : ∀ c ∈ digits, c.isDigit) :
    withoutPlus digits = digits := by
  -- A plus sign is no digit.
  unfold withoutPlus
  split
  · exact absurd (all '+' List.mem_cons_self) (by decide)
  · rfl

/-- A number below the bound is read back from its digits. -/
theorem natural?_numeral {bound number : Nat} (below : number < bound) :
    natural? bound (numeral number) = some number := by
  -- Nothing is stripped from digits, and they name the number.
  have plain : withoutPlus (Nat.toDigits 10 number) = Nat.toDigits 10 number :=
    withoutPlus_of_isDigit fun _ member =>
      Nat.isDigit_of_mem_toDigits (by decide) (by decide) member
  simp [natural?, numeral, plain, digitsValue?_toDigits, Option.filter, below]

end Text

end NfaInduction
