/-! Blanks are the characters of the White_Space property, and they bound lines and fields. -/

namespace NfaInduction

namespace Text

/-- Whether a character is a blank. -/
def isBlank (c : Char) : Bool :=
  let code := c.toNat
  -- Line and tab controls, the spaces of all widths, and the two separators.
  (0x9 ≤ code && code ≤ 0xD) || code == 0x20 || code == 0x85 || code == 0xA0 || code == 0x1680 ||
    (0x2000 ≤ code && code ≤ 0x200A) || code == 0x2028 || code == 0x2029 || code == 0x202F ||
    code == 0x205F || code == 0x3000

/-- A text without the blanks at its ends. -/
def trim (text : String) : String :=
  let left := text.toList.dropWhile isBlank
  String.ofList (left.reverse.dropWhile isBlank).reverse

/-- The longest runs of other characters than blanks, in order. -/
def fields (text : String) : List String :=
  ((text.toList.splitOnP isBlank).filter (!·.isEmpty)).map String.ofList

end Text

end NfaInduction
