import NfaInduction.Failure

/-! A stream of bytes is read line by line, and each line is text or a failure of its own. -/

namespace NfaInduction

/-- A line as it was read: its text without the line end, or why there is none. -/
abbrev Line := Except InputFailure String

namespace Text

/-- The byte that ends a line. -/
def lineEnd : UInt8 := 10

/-- The bytes of each line, where a line end at the very end starts no further line. -/
def splitLines (bytes : List UInt8) : List (List UInt8) :=
  let pieces := bytes.splitOnP (· == lineEnd)
  -- What follows the last line end is a line only if there is something.
  if pieces.getLast?.any (·.isEmpty) then pieces.dropLast else pieces

/-- The text of a line, if its bytes are valid UTF-8. -/
def decodeLine (bytes : List UInt8) : Line :=
  match String.fromUTF8? bytes.toByteArray with
  | some text => .ok text
  | none => .error .invalidText

/-- The lines of a stream of bytes. -/
def lines (bytes : ByteArray) : List Line := (splitLines bytes.data.toList).map decodeLine

end Text

end NfaInduction
