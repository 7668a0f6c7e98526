import NfaInduction.Proofs.Model.Intake
import NfaInduction.Proofs.Sample.Intake
import NfaInduction.Proofs.Text.Line

/-! Both readers report the first line at fault, and what stands behind it has no influence. -/

namespace NfaInduction

namespace Text

/-- The bytes of the first lines, with the ends of these lines. -/
def takeLines : Nat → List UInt8 → List UInt8
  | 0, _ => []
  | _ + 1, [] => []
  | count + 1, byte :: rest =>
    byte :: if byte == lineEnd then takeLines count rest else takeLines (count + 1) rest

/-- A text cut behind its first lines. -/
def firstLines (count : Nat) (bytes : ByteArray) : ByteArray :=
  (takeLines count bytes.data.toList).toByteArray

/-- Behind a line end the next line starts, unless nothing follows. -/
theorem splitLines_lineEnd (rest : List UInt8) :
    splitLines (lineEnd :: rest) = [] :: splitLines rest := by
  have pieces := List.splitOnP_ne_nil (· == lineEnd) rest
  rw [splitLines, splitLines, List.splitOnP_cons_eq_if_modifyHead, beq_self_eq_true]
  simp only [if_true, List.getLast?_cons_of_ne_nil pieces, List.dropLast_cons_of_ne_nil pieces]
  split <;> rfl

/-- Lines with a byte in front of the first one, which it starts if there is none. -/
def lead (byte : UInt8) : List (List UInt8) → List (List UInt8)
  | [] => [[byte]]
  | line :: others => (byte :: line) :: others

/-- Leading bytes belong to the first line. -/
theorem take_lead (byte : UInt8) (pieces : List (List UInt8)) (count : Nat) :
    (lead byte pieces).take (count + 1) = lead byte (pieces.take (count + 1)) := by
  cases pieces with
  | nil => simp [lead]
  | cons => rfl

/-- A byte that ends no line belongs to the first line. -/
theorem splitLines_cons {byte : UInt8} (inside : (byte == lineEnd) = false) (rest : List UInt8) :
    splitLines (byte :: rest) = lead byte (splitLines rest) := by
  have pieces := List.splitOnP_ne_nil (· == lineEnd) rest
  rw [splitLines, splitLines, List.splitOnP_cons_eq_if_modifyHead, inside]
  generalize rest.splitOnP (· == lineEnd) = found at pieces ⊢
  cases found with
  | nil => exact absurd rfl pieces
  | cons first others =>
    cases others with
    | nil => cases first <;> rfl
    | cons second others =>
      -- The last piece is not the one that the byte belongs to.
      simp only [Bool.false_eq_true, if_false, List.modifyHead_cons, List.getLast?_cons_cons,
        List.dropLast_cons_cons]
      split <;> rfl

/-- Cutting a text behind its first lines leaves these lines. -/
theorem splitLines_takeLines (count : Nat) (bytes : List UInt8) :
    splitLines (takeLines count bytes) = (splitLines bytes).take count := by
  -- A line end closes the piece it stands after; any other byte goes to the first piece.
  fun_induction takeLines count bytes with
  | case1 => rfl
  | case2 => rfl
  | case3 count byte rest next same =>
    cases inside : byte == lineEnd with
    | true =>
      obtain rfl := eq_of_beq inside
      rw [if_pos rfl, splitLines_lineEnd, splitLines_lineEnd, next]
      rfl
    | false =>
      rw [if_neg Bool.false_ne_true, splitLines_cons inside, splitLines_cons inside, same, take_lead]

/-- Cutting a text behind its first lines leaves these lines. -/
theorem lines_firstLines (count : Nat) (bytes : ByteArray) :
    lines (firstLines count bytes) = (lines bytes).take count := by
  have whole : (firstLines count bytes).data.toList = takeLines count bytes.data.toList := by
    simp [firstLines]
  rw [lines, whole, splitLines_takeLines, List.map_take, lines]

end Text

/--
A reader blames the first line at fault, and what stands behind this line has no influence.

The end of a text with some number of lines is reported with one of the numbers that belong to it.
-/
structure StopsAtFault {result : Type} (read : ByteArray → Except Error result)
    (ending : Nat → Nat → Prop) : Prop where
  /-- Every failure blames one of the lines, or says that the text ends too early. -/
  reported : ∀ bytes error, read bytes = .error error →
    (∃ number, 0 < number ∧ number ≤ (Text.lines bytes).length ∧
      error.Blames (Text.lines bytes) number) ∨
    error.EndsEarly (ending (Text.lines bytes).length)
  /-- A text that is the same up to the line that is blamed fails the same way. -/
  alike : ∀ bytes error number, read bytes = .error error → error.Blames (Text.lines bytes) number →
    ∀ others, (Text.lines others).take number = (Text.lines bytes).take number →
      read others = .error error
  /-- What stands before the line that is blamed is read, or ends too early. -/
  before : ∀ bytes error number, read bytes = .error error →
    error.Blames (Text.lines bytes) number →
    (∃ found, read (Text.firstLines (number - 1) bytes) = .ok found) ∨
      ∃ early, read (Text.firstLines (number - 1) bytes) = .error early ∧
        early.EndsEarly (ending (number - 1))

/-- A reader that is fed line by line stops at the first line at fault. -/
theorem Intake.Reports.stopsAtFault {stage result : Type} {intake : Intake stage result}
    {ending : Nat → Nat → Prop} (reports : intake.Reports ending)
    {read : ByteArray → Except Error result}
    (same : ∀ bytes, read bytes = intake.read (Text.lines bytes)) :
    StopsAtFault read ending where
  -- Reading the first lines of a text is reading the text's first lines.
  reported bytes error failed := reports.blames_or_endsEarly ((same bytes).symm.trans failed)
  alike bytes error number failed blamed others begun := by
    rw [same] at failed ⊢
    exact reports.read_of_take failed blamed begun
  before bytes error number failed blamed := by
    rw [same] at failed ⊢
    rw [Text.lines_firstLines]
    exact reports.read_take failed blamed

/-- What is made of what was read has no influence on what is reported. -/
theorem StopsAtFault.map {first second : Type} {read : ByteArray → Except Error first}
    {ending : Nat → Nat → Prop} (stops : StopsAtFault read ending) (make : first → second) :
    StopsAtFault (fun bytes => (read bytes).map make) ending where
  reported bytes error failed := stops.reported bytes error (map_eq_error.1 failed)
  alike bytes error number failed blamed others begun :=
    map_eq_error.2 (stops.alike bytes error number (map_eq_error.1 failed) blamed others begun)
  before bytes error number failed blamed := by
    rcases stops.before bytes error number (map_eq_error.1 failed) blamed with
      ⟨found, read⟩ | ⟨early, refused, ended⟩
    · exact .inl ⟨make found, congrArg (Except.map make) read⟩
    · exact .inr ⟨early, map_eq_error.2 refused, ended⟩

/-- The readers of model texts and of sample files stop at the first line at fault. -/
theorem readers_stopAtFault :
    StopsAtFault Automaton.ofModelBytes
      (fun lineCount number => number = lineCount ∨ number = lineCount + 1) ∧
    StopsAtFault SampleFile.ofBytes (fun _ number => number = 1) :=
  ⟨(Model.reports_intake.stopsAtFault fun bytes => Model.ofLines_eq_read (Text.lines bytes)).map
      Model.toAutomaton,
    SampleFile.reports_intake.stopsAtFault fun bytes =>
      SampleFile.ofLines_eq_read (Text.lines bytes)⟩

/-- A model text with a comment and a blank line whose eighth line names an unknown symbol. -/
def unknownSymbol : List String := ["2", "# states", "1", "0", "", "", "2", "0 0 7"]

/-- Whatever follows, its eighth line is reported, and the lines before it lack transitions. -/
theorem readers_stopAtFault_unknownSymbol :
    Automaton.ofModelBytes (Text.ofLines unknownSymbol).toUTF8 =
      .error (.invalidFormat 8 (.symbolOutsideAlphabet 7 2)) ∧
    (∀ later : List String, (∀ text ∈ later, '\n' ∉ text.toList) →
      Automaton.ofModelBytes (Text.ofLines (unknownSymbol ++ later)).toUTF8 =
        .error (.invalidFormat 8 (.symbolOutsideAlphabet 7 2))) ∧
    Automaton.ofModelBytes (Text.firstLines 7 (Text.ofLines unknownSymbol).toUTF8) =
      .error (.invalidFormat 7 (.tooFewTransitions 2 0)) := by
  -- The fault is on line 8, so what follows it is not read and line 8 itself is.
  have whole : ∀ text ∈ unknownSymbol, '\n' ∉ text.toList := by decide
  have lines := Text.lines_ofLines whole
  have failed : Automaton.ofModelBytes (Text.ofLines unknownSymbol).toUTF8 =
      .error (.invalidFormat 8 (.symbolOutsideAlphabet 7 2)) := by
    rw [Automaton.ofModelBytes, lines]
    decide +kernel
  refine ⟨failed, fun later more => ?_, ?_⟩
  · refine readers_stopAtFault.1.alike _ _ 8 failed (.malformed Bool.false_ne_true) _ ?_
    rw [lines, Text.lines_ofLines (List.forall_mem_append.2 ⟨whole, more⟩)]
    rfl
  · rw [Automaton.ofModelBytes, Text.lines_firstLines, lines]
    decide +kernel

end NfaInduction
