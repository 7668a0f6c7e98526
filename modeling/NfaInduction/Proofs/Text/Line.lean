import Mathlib.Data.List.Basic
import NfaInduction.Model.Printer
import NfaInduction.Text.Line

/-! Lines written one under the other are read back as they were, whatever characters they hold. -/

namespace NfaInduction

namespace Text

/-- The bytes of a text. -/
def bytesOf (text : String) : List UInt8 := text.toUTF8.data.toList

/-- The bytes of a text are those of its characters one after the other. -/
theorem bytesOf_eq (text : String) : bytesOf text = text.toList.flatMap String.utf8EncodeChar := by
  have encoded : text.toUTF8 = text.toList.utf8Encode := by
    rw [String.toUTF8_eq_toByteArray, ← String.toByteArray_ofList, String.ofList_toList]
  rw [bytesOf, encoded, List.utf8Encode]
  simp

/-- Only the line end is encoded with the byte that ends a line. -/
theorem lineEnd_mem_utf8EncodeChar {c : Char} (member : lineEnd ∈ String.utf8EncodeChar c) :
    c = '\n' := by
  have same : ∀ value : Nat, lineEnd = UInt8.ofNat value ↔ value % 256 = 10 := by
    intro value
    rw [lineEnd, ← UInt8.toNat_inj, UInt8.toNat_ofNat', eq_comm]
    rfl
  have small : c.val.toNat = 10 := by
    unfold String.utf8EncodeChar at member
    dsimp only at member
    -- Every byte of a longer encoding is at least 128.
    split at member
    · simp only [List.mem_singleton, same] at member
      omega
    · split at member
      · simp only [List.mem_cons, List.not_mem_nil, or_false, same] at member
        omega
      · split at member
        · simp only [List.mem_cons, List.not_mem_nil, or_false, same] at member
          omega
        · simp only [List.mem_cons, List.not_mem_nil, or_false, same] at member
          omega
  exact Char.ext (UInt32.toNat_inj.1 small)

/-- A text without line ends has no byte that ends a line. -/
theorem lineEnd_notMem_bytesOf {text : String} (whole : '\n' ∉ text.toList) :
    lineEnd ∉ bytesOf text := by
  -- Only the line feed has the byte of a line end in its encoding.
  intro member
  rw [bytesOf_eq] at member
  obtain ⟨c, held, byte⟩ := List.mem_flatMap.1 member
  rw [lineEnd_mem_utf8EncodeChar byte] at held
  exact whole held

/-- The bytes of lines end each line. -/
theorem bytesOf_ofLines (lines : List String) :
    bytesOf (ofLines lines) = lines.flatMap fun line => bytesOf line ++ [lineEnd] := by
  -- The line end is one byte.
  have ended : ∀ line : String, bytesOf (line ++ "\n") = bytesOf line ++ [lineEnd] := by
    intro line
    rw [bytesOf_eq, bytesOf_eq, String.toList_append, List.flatMap_append]
    rfl
  rw [bytesOf_eq, ofLines, String.toList_join, List.flatMap_map, List.flatMap_assoc]
  refine List.flatMap_congr fun line _ => ?_
  rw [← bytesOf_eq, ended]

/-- Pieces that each end with a separator are split there, and nothing is left behind the last. -/
theorem splitOnP_flatMap {pieces : List (List UInt8)} (whole : ∀ piece ∈ pieces, lineEnd ∉ piece) :
    (pieces.flatMap fun piece => piece ++ [lineEnd]).splitOnP (· == lineEnd) = pieces ++ [[]] := by
  -- A piece without a line end comes back whole, followed by what the rest splits into.
  induction pieces with
  | nil => rfl
  | cons piece rest ih =>
    obtain ⟨first, later⟩ := List.forall_mem_cons.1 whole
    have unbroken : ∀ byte ∈ piece, (byte == lineEnd) = false := by
      intro byte member
      exact beq_false_of_ne fun same => first (same ▸ member)
    rw [List.flatMap_cons, List.append_assoc, List.singleton_append,
      List.splitOnP_append_cons_of_forall_mem unbroken lineEnd (by simp), ih later, List.cons_append]

/-- The bytes of a text are decoded to it. -/
theorem decodeLine_bytesOf (text : String) : decodeLine (bytesOf text) = .ok text := by
  -- Texts hold their own encoding.
  have same : (bytesOf text).toByteArray = text.toByteArray := by
    rw [bytesOf, String.toUTF8_eq_toByteArray]
    exact ByteArray.ext (by simp)
  simp [decodeLine, same, String.fromUTF8?, text.isValidUTF8, String.fromUTF8]

/-- Lines without line ends in them are read back from their text. -/
theorem lines_ofLines {texts : List String} (whole : ∀ text ∈ texts, '\n' ∉ text.toList) :
    lines (ofLines texts).toUTF8 = texts.map .ok := by
  -- Splitting undoes the joining, and decoding undoes the encoding.
  have split : splitLines (bytesOf (ofLines texts)) = texts.map bytesOf := by
    have pieces : ∀ piece ∈ texts.map bytesOf, lineEnd ∉ piece := by
      intro piece member
      obtain ⟨text, held, rfl⟩ := List.mem_map.1 member
      exact lineEnd_notMem_bytesOf (whole text held)
    have divided := splitOnP_flatMap pieces
    rw [List.flatMap_map] at divided
    simp [splitLines, bytesOf_ofLines, divided]
  show (splitLines (bytesOf (ofLines texts))).map decodeLine = texts.map .ok
  rw [split, List.map_map]
  exact List.map_congr_left fun text _ => decodeLine_bytesOf text

/-- Texts of lines without line ends are the same exactly if the lines are. -/
theorem ofLines_inj {left right : List String} (leftWhole : ∀ text ∈ left, '\n' ∉ text.toList)
    (rightWhole : ∀ text ∈ right, '\n' ∉ text.toList) :
    ofLines left = ofLines right ↔ left = right := by
  refine ⟨fun same => ?_, congrArg ofLines⟩
  have read := congrArg (fun text : String => lines text.toUTF8) same
  rw [lines_ofLines leftWhole, lines_ofLines rightWhole] at read
  exact List.map_injective_iff.2 (fun _ _ => Except.ok.inj) read

end Text

end NfaInduction
