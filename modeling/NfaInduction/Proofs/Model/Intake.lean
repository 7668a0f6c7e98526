import NfaInduction.Model.Reader
import NfaInduction.Proofs.Text.Intake

/-! A model text is read as if its lines were fed one by one to a reader that knows the next part. -/

namespace NfaInduction

/-- Whether the line of a part may be blank, as those of flags may. -/
def ModelPart.mayBeBlank : ModelPart → Bool
  | .initialStates | .finalStates => true
  | _ => false

namespace Model

/-- How much of a model text was read. -/
inductive Stage where
  /-- A part comes next, and what was read before it belongs to the model. -/
  | before (part : ModelPart) (model : Model)
  /-- Transitions come next, of which a number was declared, and some may be in the model already. -/
  | transitions (declared : Nat) (model : Model)

namespace Stage

/-- Where the line of a part leads. -/
def ofPart (model : Model) (line : FieldLine) : ModelPart → Except Error Stage
  | .alphabetSize => do
    let alphabetSize ← line.single .alphabetSize
    if !Capacity.fits alphabetSize 0 then line.refuse .alphabetTooLarge
    return .before .stateCount { model with alphabetSize }
  | .stateCount => do
    let stateCount ← line.single .stateCount
    if Capacity.maxStates < stateCount then line.refuse .tooManyStates
    if !Capacity.fits model.alphabetSize stateCount then line.refuse .relationTooLarge
    return .before .initialStates { model with stateCount }
  | .initialStates => do
    let initial ← line.fields.mapM (readState model.stateCount line)
    return .before .finalStates { model with initial }
  | .finalStates => do
    let finals ← line.fields.mapM (readState model.stateCount line)
    return .before .transitionCount { model with finals }
  | .transitionCount => do
    let declared ← line.single .transitionCount
    return .transitions declared model

/-- The transition on a line in its place among the transitions, unless it is one too many. -/
def readRow (alphabetSize stateCount declared : Nat) (row : Entry × Nat) :
    Except Error Automaton.Transition := do
  let line ← row.1
  if declared ≤ row.2 then line.refuse (.tooManyTransitions declared)
  readTransition alphabetSize stateCount line

/-- Where a line leads that is no comment. -/
def next (line : FieldLine) : Stage → Except Error Stage
  | .before part model =>
    if line.isBlank && !part.mayBeBlank then return .before part model else ofPart model line part
  | .transitions declared model =>
    if line.isBlank then return .transitions declared model
    else do
      let found := model.transitions.length
      let step ← readRow model.alphabetSize model.stateCount declared (.ok line, found)
      return .transitions declared { model with transitions := model.transitions ++ [step] }

/-- The model at the end of a text with some number of lines. -/
def close (lineCount : Nat) : Stage → Except Error Model
  | .before part _ => .error (.invalidFormat (lineCount + 1) (.missingPart part))
  | .transitions declared model =>
    if model.transitions.length < declared then
      .error (.invalidFormat lineCount (.tooFewTransitions declared model.transitions.length))
    else return model

end Stage

/-- The reader of model texts, which passes over comments. -/
@[simps] def intake : Intake Stage Model where
  start := .before .alphabetSize ⟨0, 0, [], [], []⟩
  skips := FieldLine.isComment
  feed stage line := stage.next line
  close stage lineCount := stage.close lineCount

namespace Stage

variable {part : ModelPart} {model : Model} {lineCount : Nat}

/-- Behind the line of a part that may not be blank, reading goes on where the part leads. -/
theorem finish_content (content : part.mayBeBlank = false) (entries : List Entry) :
    intake.finish lineCount entries (before part model) =
      nextContent part lineCount entries >>= fun (line, rest) =>
        ofPart model line part >>= intake.finish lineCount rest := by
  -- The induction passes over blank lines up to the one that both read.
  induction entries with
  | nil => rfl
  | cons entry rest ih =>
    cases entry with
    | error => rfl
    | ok line =>
      have found : nextContent part lineCount (.ok line :: rest) =
          if line.isBlank then nextContent part lineCount rest else .ok (line, rest) := rfl
      rw [Intake.finish_cons, intake_feed, next, content, found]
      cases line.isBlank with
      | true => exact ih
      | false => rfl

/-- The next line is that of a part that may be blank, and reading goes on where the part leads. -/
theorem finish_line (flags : part.mayBeBlank = true) (entries : List Entry) :
    intake.finish lineCount entries (before part model) =
      nextLine part lineCount entries >>= fun (line, rest) =>
        ofPart model line part >>= intake.finish lineCount rest := by
  -- A part that may be blank takes whatever line comes next.
  cases entries with
  | nil => rfl
  | cons entry rest =>
    cases entry with
    | error => rfl
    | ok line =>
      rw [Intake.finish_cons, intake_feed, next, flags, Bool.not_true, Bool.and_false]
      rfl

/-- Behind the number of transitions, each line that is not blank adds one. -/
theorem finish_transitions (declared : Nat) (entries : List Entry) :
    intake.finish lineCount entries (transitions declared model) = (do
      let contents := entries.filter (FieldLine.outside FieldLine.isBlank)
      let steps ← (contents.zipIdx model.transitions.length).mapM
        (readRow model.alphabetSize model.stateCount declared)
      close lineCount
        (transitions declared { model with transitions := model.transitions ++ steps })) := by
  induction entries generalizing model with
  | nil => simp [Intake.finish]
  | cons entry rest ih =>
    cases entry with
    | error => rfl
    | ok line =>
      rw [Intake.finish_cons, intake_feed, next, List.filter_cons, FieldLine.outside]
      cases line.isBlank with
      | true => exact ih
      | false =>
        simp only [Bool.not_false, if_true, List.zipIdx_cons, List.mapM_cons]
        cases readRow model.alphabetSize model.stateCount declared
            (.ok line, model.transitions.length) with
        | error => rfl
        | ok step =>
          -- The place of the next transition is the number of those that were found.
          refine (@ih { model with transitions := model.transitions ++ [step] }).trans ?_
          simp only [List.length_append, List.length_singleton, List.append_assoc,
            List.singleton_append]
          generalize (List.zipIdx _ _).mapM (readRow _ _ declared) = others
          cases others <;> rfl

end Stage

open Stage in
/-- There are as many transitions as lines of them, so that either number may be compared. -/
theorem readTransitions_bind (alphabetSize stateCount : Nat) (initial finals : List Nat)
    (declared lineCount : Nat) (entries : List Entry) :
    (do
      let transitions ← readTransitions alphabetSize stateCount declared lineCount entries
      return (⟨alphabetSize, stateCount, initial, finals, transitions⟩ : Model)) = (do
      let contents := entries.filter (FieldLine.outside FieldLine.isBlank)
      let steps ← contents.zipIdx.mapM (readRow alphabetSize stateCount declared)
      close lineCount (.transitions declared ⟨alphabetSize, stateCount, initial, finals, steps⟩)) := by
  -- Every row fills one transition, so counting lines and counting steps agree.
  rw [readTransitions]
  dsimp only
  generalize entries.filter (FieldLine.outside FieldLine.isBlank) = contents
  show (contents.zipIdx.mapM (readRow alphabetSize stateCount declared) >>= _) >>= _ = _
  cases read : contents.zipIdx.mapM (readRow alphabetSize stateCount declared) with
  | error => rfl
  | ok steps =>
    have count := (mapM_eq_ok.1 read).length_eq
    rw [List.length_zipIdx] at count
    show ite (contents.length < declared) _ _ >>= _ = ite (steps.length < declared) _ _
    rw [count]
    split <;> rfl

open Stage in
/-- Reading a model text is feeding its lines to the reader. -/
theorem ofLines_eq_read (lines : List Line) : ofLines lines = intake.read lines := by
  rw [Intake.read_eq_finish, intake_start, finish_content rfl, ofLines]
  -- Part by part, both read the same line, and go on with the lines behind it.
  simp only [ofPart, FieldLine.refuse_bind, FieldLine.check_bind, bind_assoc, pure_bind,
    @finish_content .stateCount _ _ rfl, @finish_line .initialStates _ _ rfl,
    @finish_line .finalStates _ _ rfl, @finish_content .transitionCount _ _ rfl,
    finish_transitions, readTransitions_bind, List.length_nil, List.nil_append]
  rfl

section AnswersFor

open FieldLine

variable {line : FieldLine}

/-- A line answers for the state that a field names. -/
theorem answersFor_readState (stateCount : Nat) (field : String) :
    line.AnswersFor (readState stateCount line field) := by
  refine (answersFor_value ..).bind fun state => ?_
  split
  · exact .result _
  · exact .defect Bool.false_ne_true

/-- A line answers for the transition on it. -/
theorem answersFor_readTransition (alphabetSize stateCount : Nat) :
    line.AnswersFor (readTransition alphabetSize stateCount line) := by
  -- Three fields are read and one bound is checked, all of them on this line.
  rw [readTransition]
  split
  · refine (answersFor_readState ..).bind fun source => (answersFor_readState ..).bind fun target =>
      (answersFor_value ..).bind fun symbol => ?_
    split
    · exact .result _
    · exact .defect Bool.false_ne_true
  · exact .defect Bool.false_ne_true

/-- A line answers for the part that it is. -/
theorem answersFor_ofPart (model : Model) (part : ModelPart) :
    line.AnswersFor (Stage.ofPart model line part) := by
  -- Each header part reads fields of its line and checks bounds on what it read.
  have states : ∀ stateCount, line.AnswersFor (line.fields.mapM (readState stateCount line)) :=
    fun stateCount => answersFor_mapM (answersFor_readState stateCount) _
  cases part with
  | alphabetSize =>
    exact (answersFor_single _).bind fun _ => .check Bool.false_ne_true (.result _)
  | stateCount =>
    exact (answersFor_single _).bind fun _ =>
      .check Bool.false_ne_true (.check Bool.false_ne_true (.result _))
  | initialStates => exact (states _).bind fun _ => .result _
  | finalStates => exact (states _).bind fun _ => .result _
  | transitionCount => exact (answersFor_single _).bind fun _ => .result _

/-- A line answers for where it leads. -/
theorem answersFor_next (stage : Stage) : line.AnswersFor (stage.next line) := by
  -- A skipped line answers with the stage as it was; any other is read as its part.
  cases stage with
  | before part model =>
    rw [Stage.next]
    split
    · exact .result _
    · exact answersFor_ofPart model part
  | transitions declared model =>
    rw [Stage.next]
    split
    · exact .result _
    · refine AnswersFor.bind ?_ fun _ => .result _
      exact .check Bool.false_ne_true (answersFor_readTransition ..)

end AnswersFor

/-- The end of a model text is reported at its last line or behind it. -/
theorem reports_intake :
    intake.Reports fun lineCount number => number = lineCount ∨ number = lineCount + 1 where
  -- A missing header line is blamed one past the end, missing transitions on the last line.
  feed stage line := answersFor_next stage
  close stage lineCount error failed := by
    change stage.close lineCount = .error error at failed
    cases stage with
    | before part model =>
      cases failed
      exact ⟨rfl, .inr rfl⟩
    | transitions declared model =>
      rw [Stage.close] at failed
      split at failed
      · cases failed
        exact ⟨rfl, .inl rfl⟩
      · cases failed

end Model

end NfaInduction
