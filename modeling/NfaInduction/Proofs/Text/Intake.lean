import Mathlib.Data.List.Induction
import NfaInduction.FieldLine
import NfaInduction.Proofs.Except

/-! A reader that is fed line by line ends at the first line it refuses, whatever follows. -/

namespace NfaInduction

/-- Whether a defect is that a text ends too early, which none of its lines can show. -/
def Defect.isAtEnd : Defect → Bool
  | .missingHeader | .missingPart _ | .tooFewTransitions .. => true
  | _ => false

namespace Error

/-- An error blames a line that is malformed, or the first one that is no text. -/
inductive Blames (lines : List Line) (number : Nat) : Error → Prop where
  /-- What is wrong was found on the line. -/
  | malformed {defect : Defect} (found : ¬defect.isAtEnd) :
      Blames lines number (.invalidFormat number defect)
  /-- Every line before it is text. -/
  | unreadable {failure : InputFailure} {texts : List String} {rest : List Line}
      (split : lines = texts.map .ok ++ .error failure :: rest) (place : number = texts.length + 1) :
      Blames lines number (.input failure)

/-- An error says that a text ends too early, and names one of some line numbers. -/
inductive EndsEarly (numbers : Nat → Prop) : Error → Prop where
  /-- Something was still to come. -/
  | intro {number : Nat} {defect : Defect} (early : defect.isAtEnd) (named : numbers number) :
      EndsEarly numbers (.invalidFormat number defect)

/-- No line can be blamed for the end of a text. -/
theorem EndsEarly.not_blames {numbers : Nat → Prop} {error : Error} (early : error.EndsEarly numbers)
    (lines : List Line) (number : Nat) : ¬error.Blames lines number := by
  -- A defect in a line is not one at the end.
  intro blamed
  obtain ⟨atEnd, _⟩ := early
  cases blamed with
  | malformed found => exact found atEnd

end Error

namespace FieldLine

/-- A line answers for a result, and for a failure that reports a defect on the line. -/
inductive AnswersFor {α : Type} (line : FieldLine) : Except Error α → Prop where
  /-- Something was made of the line. -/
  | result (found : α) : AnswersFor line (.ok found)
  /-- The line was refused with its own number. -/
  | defect {defect : Defect} (found : ¬defect.isAtEnd) :
      AnswersFor line (.error (.invalidFormat line.number defect))

variable {α β : Type} {line : FieldLine}

/-- If a line answers for two parts, it does so for the first of them that fails. -/
theorem AnswersFor.bind {first : Except Error α} {next : α → Except Error β}
    (answers : line.AnswersFor first) (later : ∀ value, line.AnswersFor (next value)) :
    line.AnswersFor (first >>= next) := by
  -- A defect that comes first is the one that is reported.
  cases answers with
  | result value => exact later value
  | defect found => exact .defect found

/-- A check refuses the line with a defect, or has no influence. -/
theorem AnswersFor.check {refused : Prop} [Decidable refused] {defect : Defect}
    {rest : Except Error α} (found : ¬defect.isAtEnd) (answers : line.AnswersFor rest) :
    line.AnswersFor (if refused then line.refuse defect else rest) := by
  -- The check comes before the rest.
  split
  · exact .defect found
  · exact answers

/-- If a line answers for what is made of each item, it does so for the first one that fails. -/
theorem answersFor_mapM {make : α → Except Error β} (answers : ∀ item, line.AnswersFor (make item))
    (items : List α) : line.AnswersFor (items.mapM make) := by
  -- The induction goes along the items, each of which answers for the line.
  induction items with
  | nil =>
    rw [List.mapM_nil]
    exact .result []
  | cons item rest ih =>
    rw [List.mapM_cons]
    exact (answers item).bind fun _ => ih.bind fun _ => .result _

/-- A line answers for the value of a field. -/
theorem answersFor_value (kind : FieldKind) (parse : String → Option α) (field : String) :
    line.AnswersFor (line.value kind parse field) := by
  -- A value that is not parsed is a defect of the line.
  rw [value]
  split
  · exact .result _
  · exact .defect Bool.false_ne_true

/-- A line answers for a number that stands alone on it. -/
theorem answersFor_single (kind : FieldKind) : line.AnswersFor (line.single kind) := by
  -- Several fields are a defect of the line.
  rw [single]
  split
  · exact answersFor_value kind _ _
  · exact .defect Bool.false_ne_true

/-- Nothing goes on behind a line that is refused. -/
theorem refuse_bind (defect : Defect) (goOn : α → Except Error β) :
    line.refuse defect >>= goOn = line.refuse defect := rfl

/-- Behind a check reading goes on unless the line is refused. -/
theorem check_bind {defect : Defect} {refused : Prop} [Decidable refused] {rest : Except Error α}
    {goOn : α → Except Error β} : (if refused then line.refuse defect else rest) >>= goOn =
      if refused then line.refuse defect else rest >>= goOn := by
  split <;> rfl

end FieldLine

/-- A reader that is in some stage, goes on with each line, and closes at the end of the text. -/
structure Intake (stage result : Type) where
  /-- Where it starts. -/
  start : stage
  /-- Whether a line is passed over. -/
  skips : FieldLine → Bool
  /-- Where any other line leads. -/
  feed : stage → FieldLine → Except Error stage
  /-- What comes of the last stage and the number of lines. -/
  close : stage → Nat → Except Error result

namespace Intake

variable {stage result : Type} (intake : Intake stage result)

/-- Where the next line leads, if it is text. -/
def take (reached : stage) (entry : Except Error FieldLine) : Except Error stage := do
  let line ← entry
  if intake.skips line then return reached else intake.feed reached line

/-- Where all lines lead. -/
def feedAll (lines : List Line) : Except Error stage :=
  (FieldLine.ofLines lines).foldlM intake.take intake.start

/-- What is read from some lines. -/
def read (lines : List Line) : Except Error result :=
  intake.feedAll lines >>= (intake.close · lines.length)

/-- What comes of entries none of which is passed over. -/
def finish (lineCount : Nat) (entries : List (Except Error FieldLine)) (reached : stage) :
    Except Error result :=
  entries.foldlM (fun reached entry => entry >>= intake.feed reached) reached >>=
    (intake.close · lineCount)

/-- What is passed over may as well be left out. -/
theorem read_eq_finish (lines : List Line) : intake.read lines = intake.finish lines.length
    ((FieldLine.ofLines lines).filter (FieldLine.outside intake.skips)) intake.start := by
  have same : intake.take = fun reached entry =>
      if FieldLine.outside intake.skips entry then entry >>= intake.feed reached else pure reached := by
    funext reached entry
    -- A line that cannot be read is not passed over, whatever may stand on it.
    cases entry with
    | error => rfl
    | ok line =>
      show (if intake.skips line then pure reached else intake.feed reached line) = _
      rw [FieldLine.outside]
      cases intake.skips line <;> rfl
  rw [finish, List.foldlM_filter, ← same]
  rfl

/-- The first line leads to another stage, from which the others are taken. -/
theorem finish_cons (lineCount : Nat) (line : FieldLine) (rest : List (Except Error FieldLine))
    (reached : stage) : intake.finish lineCount (.ok line :: rest) reached =
      intake.feed reached line >>= intake.finish lineCount rest := by
  simp only [finish, List.foldlM_cons, bind_assoc]
  rfl

/-- The last of some lines is taken where the others have led to. -/
theorem feedAll_concat (lines : List Line) (line : Line) :
    intake.feedAll (lines ++ [line]) =
      intake.feedAll lines >>= (intake.take · (FieldLine.ofLine (line, lines.length + 1))) := by
  simp [feedAll, FieldLine.ofLines, List.zipIdx_append, Nat.add_comm 1]

variable {intake}

/-- Nothing is taken behind a line that is refused. -/
theorem feedAll_append {lines : List Line} {error : Error}
    (failed : intake.feedAll lines = .error error) (more : List Line) :
    intake.feedAll (lines ++ more) = .error error := by
  -- The induction takes the further lines off from behind.
  induction more using List.reverseRecOn with
  | nil => rwa [List.append_nil]
  | append_singleton more line ih =>
    rw [← List.append_assoc, feedAll_concat, ih]
    rfl

/-- Lines that are all taken are text. -/
theorem exists_texts {lines : List Line} {reached : stage} (taken : intake.feedAll lines = .ok reached) :
    ∃ texts : List String, lines = texts.map .ok := by
  -- If the last line was taken, so were those before it.
  induction lines using List.reverseRecOn generalizing reached with
  | nil => exact ⟨[], rfl⟩
  | append_singleton lines line ih =>
    rw [feedAll_concat] at taken
    obtain ⟨before, first, last⟩ := bind_eq_ok.1 taken
    obtain ⟨texts, rfl⟩ := ih first
    cases line with
    | ok text => exact ⟨texts ++ [text], by simp⟩
    | error => cases last

/-- If not all lines are taken, there is a first one that is refused. -/
theorem exists_refused {lines : List Line} {error : Error}
    (failed : intake.feedAll lines = .error error) : ∃ before line rest reached,
      lines = before ++ line :: rest ∧ intake.feedAll before = .ok reached ∧
      intake.take reached (FieldLine.ofLine (line, before.length + 1)) = .error error := by
  induction lines using List.reverseRecOn with
  | nil => cases failed
  | append_singleton lines line ih =>
    cases first : intake.feedAll lines with
    | ok reached =>
      -- All lines before the last one are taken, and so it is the first that is refused.
      rw [feedAll_concat, bind_of_ok first] at failed
      exact ⟨lines, line, [], reached, rfl, first, failed⟩
    | error earlier =>
      cases failed.symm.trans (feedAll_append first [line])
      obtain ⟨before, refused, rest, reached, rfl, taken⟩ := ih first
      exact ⟨before, refused, rest ++ [line], reached, by simp, taken⟩

/-- Where a text is read to its end, all of its lines are text. -/
theorem exists_texts_of_read {lines : List Line} {found : result}
    (done : intake.read lines = .ok found) : ∃ texts : List String, lines = texts.map .ok := by
  obtain ⟨_, taken, _⟩ := bind_eq_ok.1 done
  exact exists_texts taken

variable (intake) in
/-- A line is refused for what stands on it, and the end of a text because more was to come. -/
structure Reports (ending : Nat → Nat → Prop) : Prop where
  /-- The number of the line is reported. -/
  feed : ∀ reached (line : FieldLine), line.AnswersFor (intake.feed reached line)
  /-- The number of lines decides which numbers may be reported. -/
  close : ∀ reached lineCount error, intake.close reached lineCount = .error error →
    error.EndsEarly (ending lineCount)

/-- A line that is passed over answers for where it leads as well. -/
theorem Reports.take {ending : Nat → Nat → Prop} (reports : intake.Reports ending)
    (reached : stage) (line : FieldLine) : line.AnswersFor (intake.take reached (.ok line)) := by
  -- A line that is skipped has no defect to answer for.
  show line.AnswersFor (if intake.skips line then pure reached else intake.feed reached line)
  split
  · exact .result reached
  · exact reports.feed reached line

/-- Of two ways to split lines at the first one that is no text there is one. -/
theorem length_eq_of_split {texts others : List String} {failure other : InputFailure}
    {rest more : List Line} (same : texts.map .ok ++ .error failure :: rest =
      others.map .ok ++ .error other :: more) : texts.length = others.length := by
  -- Neither list of texts can end before the other one does.
  induction texts generalizing others with
  | nil =>
    cases others with
    | nil => rfl
    | cons => cases List.head_eq_of_cons_eq same
  | cons text texts ih =>
    cases others with
    | nil => cases List.head_eq_of_cons_eq same
    | cons => exact congrArg (· + 1) (ih (List.tail_eq_of_cons_eq same))

variable {ending : Nat → Nat → Prop} {lines : List Line} {error : Error}

/-- A line that is refused is blamed, and no other line can be. -/
theorem Reports.blames_iff (reports : intake.Reports ending) {before rest : List Line} {line : Line}
    {reached : stage} (taken : intake.feedAll before = .ok reached)
    (refused : intake.take reached (FieldLine.ofLine (line, before.length + 1)) = .error error)
    (number : Nat) : error.Blames (before ++ line :: rest) number ↔ number = before.length + 1 := by
  cases line with
  | ok text =>
    -- What is wrong with a text is reported with the number of its line and no other.
    have answers := reports.take reached ⟨before.length + 1, Text.fields text⟩
    rw [FieldLine.ofLine] at refused
    rw [refused] at answers
    cases answers with
    | defect found =>
      constructor
      · intro blamed
        cases blamed
        rfl
      · rintro rfl
        exact .malformed found
  | error failure =>
    -- A line that is no text is found by counting the lines of text before it.
    obtain ⟨texts, rfl⟩ := exists_texts taken
    obtain rfl : error = .input failure := (Except.error.inj refused).symm
    rw [List.length_map]
    constructor
    · intro blamed
      cases blamed with
      | unreadable split place => rw [place, length_eq_of_split split]
    · intro place
      exact .unreadable rfl place

/-- What is reported blames one of the lines, or says that the text ends too early. -/
theorem Reports.blames_or_endsEarly (reports : intake.Reports ending)
    (failed : intake.read lines = .error error) :
    (∃ number, 0 < number ∧ number ≤ lines.length ∧ error.Blames lines number) ∨
      error.EndsEarly (ending lines.length) := by
  -- Either a line was refused, or all were taken and the end came too early.
  cases fed : intake.feedAll lines with
  | ok reached =>
    rw [read, bind_of_ok fed] at failed
    exact .inr (reports.close _ _ _ failed)
  | error earlier =>
    cases failed.symm.trans (bind_of_error fed)
    obtain ⟨before, line, rest, reached, rfl, taken, refused⟩ := exists_refused fed
    refine .inl ⟨before.length + 1, by omega, by simp, ?_⟩
    exact (reports.blames_iff taken refused _).2 rfl

/-- The lines before the one that is blamed are taken, and this one is refused. -/
theorem Reports.exists_blamed (reports : intake.Reports ending)
    (failed : intake.read lines = .error error) {number : Nat} (blamed : error.Blames lines number) :
    ∃ before line rest reached, lines = before ++ line :: rest ∧ number = before.length + 1 ∧
      intake.feedAll before = .ok reached ∧ intake.feedAll (before ++ [line]) = .error error := by
  cases fed : intake.feedAll lines with
  | ok reached =>
    -- Nothing was refused, so that what is reported is the end of the text.
    rw [read, bind_of_ok fed] at failed
    exact absurd blamed ((reports.close _ _ _ failed).not_blames lines number)
  | error earlier =>
    cases failed.symm.trans (bind_of_error fed)
    obtain ⟨before, line, rest, reached, rfl, taken, refused⟩ := exists_refused fed
    refine ⟨before, line, rest, reached, rfl, (reports.blames_iff taken refused number).1 blamed,
      taken, ?_⟩
    rwa [feedAll_concat, bind_of_ok taken]

/-- Lines that are the same up to the one that is blamed are refused with the same error. -/
theorem Reports.read_of_take (reports : intake.Reports ending)
    (failed : intake.read lines = .error error) {number : Nat} (blamed : error.Blames lines number)
    {others : List Line} (same : others.take number = lines.take number) :
    intake.read others = .error error := by
  obtain ⟨before, line, rest, _, rfl, rfl, _, refused⟩ := reports.exists_blamed failed blamed
  rw [List.take_length_add_append, List.take_succ_cons, List.take_zero] at same
  -- The line is refused behind the same lines, whatever follows.
  have all := feedAll_append refused (others.drop (before.length + 1))
  rw [← same, List.take_append_drop] at all
  exact bind_of_error all

/-- What stands before the line that is blamed is read, or ends too early. -/
theorem Reports.read_take (reports : intake.Reports ending)
    (failed : intake.read lines = .error error) {number : Nat} (blamed : error.Blames lines number) :
    (∃ found, intake.read (lines.take (number - 1)) = .ok found) ∨
      ∃ early, intake.read (lines.take (number - 1)) = .error early ∧
        early.EndsEarly (ending (number - 1)) := by
  -- The lines before the blamed one were taken, so that only their end is left to judge.
  obtain ⟨before, _, _, reached, rfl, rfl, taken, _⟩ := reports.exists_blamed failed blamed
  rw [Nat.add_sub_cancel, List.take_left, read, bind_of_ok taken]
  cases closed : intake.close reached before.length with
  | ok found => exact .inl ⟨found, rfl⟩
  | error early => exact .inr ⟨early, rfl, reports.close _ _ _ closed⟩

end Intake

end NfaInduction
