import NfaInduction.Proofs.Text.Intake
import NfaInduction.Sample.Reader

/-! A sample file is read as if its lines were fed one by one to a reader that has the header or not. -/

namespace NfaInduction

namespace SampleFile

/-- How much of a sample file was read. -/
inductive Stage where
  /-- The header comes next. -/
  | beforeHeader
  /-- Samples come next, behind those that are there already. -/
  | samples (header : SampleHeader) (found : List (LabeledSample header.alphabetSize))

namespace Stage

/-- Where a line leads that is not blank. -/
def next (line : FieldLine) : Stage → Except Error Stage
  | .beforeHeader => do
    let header ← SampleHeader.ofLine line
    return .samples header []
  | .samples header found => do
    let sample ← LabeledSample.ofLine header.alphabetSize line
    return .samples header (found ++ [sample])

/-- What was read at the end of a file. -/
def close : Stage → Except Error SampleFile
  | .beforeHeader => .error (.invalidFormat 1 .missingHeader)
  | .samples header found => return ofSamples header found

end Stage

/-- The reader of sample files, which passes over blank lines. -/
@[simps] def intake : Intake Stage SampleFile where
  start := .beforeHeader
  skips := FieldLine.isBlank
  feed stage line := stage.next line
  close stage _ := stage.close

/-- Behind the header, each line adds one sample. -/
theorem finish_samples (header : SampleHeader) (found : List (LabeledSample header.alphabetSize))
    (lineCount : Nat) (entries : List (Except Error FieldLine)) :
    intake.finish lineCount entries (.samples header found) = (do
      let samples ← entries.mapM fun line => do LabeledSample.ofLine header.alphabetSize (← line)
      return ofSamples header (found ++ samples)) := by
  -- The induction follows the lines, with the samples found before them in front.
  induction entries generalizing found with
  | nil =>
    rw [List.mapM_nil, pure_bind, List.append_nil]
    rfl
  | cons entry rest ih =>
    cases entry with
    | error => rfl
    | ok line =>
      rw [Intake.finish_cons, List.mapM_cons]
      show (LabeledSample.ofLine header.alphabetSize line >>= _) >>= _ =
        (LabeledSample.ofLine header.alphabetSize line >>= _) >>= _
      simp only [bind_assoc, pure_bind, ih, List.append_assoc, List.singleton_append]

/-- Reading a sample file is feeding its lines to the reader. -/
theorem ofLines_eq_read (lines : List Line) : ofLines lines = intake.read lines := by
  rw [Intake.read_eq_finish, ofLines]
  show _ = intake.finish _ ((FieldLine.ofLines lines).filter (FieldLine.outside FieldLine.isBlank)) _
  -- The first line that is not blank is taken for the header by both.
  cases (FieldLine.ofLines lines).filter (FieldLine.outside FieldLine.isBlank) with
  | nil => rfl
  | cons entry rest =>
    cases entry with
    | error => rfl
    | ok line =>
      rw [Intake.finish_cons]
      show SampleHeader.ofLine line >>= _ = (SampleHeader.ofLine line >>= _) >>= _
      simp only [bind_assoc, pure_bind, finish_samples, List.nil_append]

section AnswersFor

open FieldLine

variable {line : FieldLine}

/-- A line answers for the header on it. -/
theorem answersFor_header : line.AnswersFor (SampleHeader.ofLine line) := by
  -- Two fields of the line and one bound on the second.
  rw [SampleHeader.ofLine]
  split
  · refine (answersFor_value ..).bind fun declared => (answersFor_value ..).bind fun size => ?_
    split
    · exact .result _
    · exact .defect Bool.false_ne_true
  · exact .defect Bool.false_ne_true

/-- A line answers for the symbols that its fields name. -/
theorem answersFor_readSymbols (alphabetSize : Nat) (fields : List String) :
    line.AnswersFor (LabeledSample.readSymbols alphabetSize line fields) := by
  -- The induction is on the fields; each is read and checked before the next.
  induction fields with
  | nil => exact .result _
  | cons field rest ih =>
    rw [LabeledSample.readSymbols]
    refine (answersFor_value ..).bind fun symbol => ?_
    split
    · exact ih.bind fun _ => .result _
    · exact .defect Bool.false_ne_true

/-- A line answers for the sample on it. -/
theorem answersFor_sample (alphabetSize : Nat) :
    line.AnswersFor (LabeledSample.ofLine alphabetSize line) := by
  -- The label, the length and then the symbols, all fields of one line.
  rw [LabeledSample.ofLine]
  split
  · refine (answersFor_value ..).bind fun label => (answersFor_value ..).bind fun declared => ?_
    exact .check Bool.false_ne_true
      ((answersFor_readSymbols alphabetSize _).bind fun _ => .result _)
  · exact .defect Bool.false_ne_true

/-- A line answers for where it leads. -/
theorem answersFor_next (stage : Stage) : line.AnswersFor (stage.next line) := by
  cases stage with
  | beforeHeader => exact answersFor_header.bind fun _ => .result _
  | samples header found => exact (answersFor_sample header.alphabetSize).bind fun _ => .result _

end AnswersFor

/-- The end of a sample file is reported at its first line. -/
theorem reports_intake : intake.Reports fun _ number => number = 1 where
  -- Only a missing header is reported at the end of the text, and it is blamed on line 1.
  feed stage line := answersFor_next stage
  close stage lineCount error failed := by
    change stage.close = .error error at failed
    cases stage with
    | beforeHeader =>
      cases failed
      exact ⟨rfl, rfl⟩
    | samples => cases failed

end SampleFile

end NfaInduction
