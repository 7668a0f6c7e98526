import NfaInduction.Model.Printer
import NfaInduction.Proofs.Model.Loading

/-! The lines of a printed model follow the grammar, and they describe the model. -/

namespace NfaInduction

namespace Model

/-- The fields of a line of numbers are their numerals. -/
theorem fields_numberLine (numbers : List Nat) :
    Text.fields (numberLine numbers) = numbers.map Text.numeral := by
  refine Text.fields_intercalate fun name member => ?_
  obtain ⟨number, _, rfl⟩ := List.mem_map.1 member
  exact Text.numeral_solid number

/-- A numeral alone is a line of one number. -/
theorem numeral_eq (number : Nat) : Text.numeral number = numberLine [number] := by
  simp [numberLine]

/-- A line of numbers is no comment. -/
theorem isCommentLine_numberLine (numbers : List Nat) :
    Text.isCommentLine (numberLine numbers) = false := by
  rw [Text.isCommentLine, ← Text.head?_fields, fields_numberLine, beq_eq_false_iff_ne]
  intro marked
  -- A numeral starts with a digit, and the mark of comments is none.
  obtain ⟨name, first, start⟩ := Option.bind_eq_some_iff.1 marked
  obtain ⟨number, _, rfl⟩ := List.mem_map.1 (List.mem_of_mem_head? first)
  exact absurd (Text.isDigit_of_mem_numeral (List.mem_of_mem_head? start)) (by decide)

/-- A line of numbers is blank if there are none. -/
theorem isBlankLine_numberLine (numbers : List Nat) :
    Text.isBlankLine (numberLine numbers) = numbers.isEmpty := by
  rw [Text.isBlankLine, Bool.eq_iff_iff, beq_iff_eq, ← Text.fields_eq_nil_iff, fields_numberLine,
    List.map_eq_nil_iff, List.isEmpty_iff]

/-- A line of numbers is written in digits and spaces. -/
theorem mem_numberLine {numbers : List Nat} {c : Char} (member : c ∈ (numberLine numbers).toList) :
    c.isDigit ∨ c = ' ' := by
  -- Numerals joined by single blanks; the induction is on the numbers.
  induction numbers with
  | nil => simp [numberLine] at member
  | cons number rest ih =>
    cases rest with
    | nil =>
      rw [← numeral_eq] at member
      exact .inl (Text.isDigit_of_mem_numeral member)
    | cons next others =>
      have split : (numberLine (number :: next :: others)).toList =
          (Text.numeral number).toList ++ ' ' :: (numberLine (next :: others)).toList := by
        simp [numberLine, String.toList_intercalate]
      rw [split, List.mem_append, List.mem_cons] at member
      rcases member with first | space | later
      · exact .inl (Text.isDigit_of_mem_numeral first)
      · exact .inr space
      · exact ih later

/-- No line of a model text holds a line end. -/
theorem lineEnd_notMem_toLines (model : Model) : ∀ text ∈ model.toLines, '\n' ∉ text.toList := by
  -- The other lines are comments without one.
  have plain : ∀ numbers, '\n' ∉ (numberLine numbers).toList := by
    intro numbers member
    rcases mem_numberLine member with digit | space
    · exact absurd digit (by decide)
    · exact absurd space (by decide)
  refine List.forall_mem_append.2 ⟨?_, fun text member => ?_⟩
  · simp only [List.forall_mem_cons, numeral_eq]
    exact ⟨by decide, plain _, by decide, plain _, by decide, plain _, by decide, plain _,
      by decide, plain _, nofun⟩
  · obtain ⟨step, _, rfl⟩ := List.mem_map.1 member
    exact plain _

/-- The titles of the parts of a model text are comments. -/
theorem isCommentLine_titles : ∀ title ∈ ["# Alphabet", "# States", "# Initial states",
    "# Final states", "# Transitions"], Text.isCommentLine title := by
  decide

/-- The lines of the transitions of a model. -/
def stepLines (model : Model) : List String :=
  model.transitions.map fun step => numberLine [step.source, step.target, step.symbol]

/-- All lines of transitions pass a test that every line with numbers passes. -/
theorem filter_stepLines (model : Model) {holds : String → Bool}
    (each : ∀ number numbers, holds (numberLine (number :: numbers))) :
    model.stepLines.filter holds = model.stepLines := by
  refine List.filter_eq_self.2 fun text member => ?_
  obtain ⟨step, _, rfl⟩ := List.mem_map.1 member
  exact each step.source [step.target, step.symbol]

/-- The lines of a model text that are no comments. -/
theorem filter_toLines (model : Model) :
    model.toLines.filter (!Text.isCommentLine ·) =
      numberLine [model.alphabetSize] :: numberLine [model.stateCount] ::
        numberLine model.initial :: numberLine model.finals ::
        numberLine [model.transitions.length] :: model.stepLines := by
  -- Lines of numbers are kept, and titles are dropped.
  have steps : model.stepLines.filter (!Text.isCommentLine ·) = model.stepLines :=
    model.filter_stepLines fun number numbers => by simp [isCommentLine_numberLine]
  have titles := isCommentLine_titles
  simp only [List.forall_mem_cons] at titles
  rw [toLines, List.filter_append, ← stepLines, steps]
  simp [numeral_eq, isCommentLine_numberLine, titles]

/-- A number of at most sixty-four bits is held by its line. -/
theorem holdsNumber_numberLine {number : Nat} (below : number < UInt64.size) :
    HoldsNumber (numberLine [number]) number :=
  ⟨Text.numeral number, fields_numberLine [number], Text.natural?_numeral below⟩

/-- The numeral of a number names it, below any bound of at most sixty-four bits. -/
theorem namesBelow_numeral {bound number : Nat} (narrow : bound ≤ UInt64.size)
    (below : number < bound) : NamesBelow bound (Text.numeral number) number :=
  ⟨Text.natural?_numeral (Nat.lt_of_lt_of_le below narrow), below⟩

/-- The fields of a line of numbers name these if they keep to the bound. -/
theorem namesBelow_numberLine {bound : Nat} (narrow : bound ≤ UInt64.size) {numbers : List Nat}
    (below : ∀ number ∈ numbers, number < bound) :
    List.Forall₂ (NamesBelow bound) (Text.fields (numberLine numbers)) numbers := by
  rw [fields_numberLine, List.forall₂_map_left_iff]
  exact List.forall₂_same.2 fun number member => namesBelow_numeral narrow (below number member)

/-- A line with a number is not skipped as a blank one. -/
theorem dropWhile_numberLine (number : Nat) (numbers : List Nat) (rest : List String) :
    (numberLine (number :: numbers) :: rest).dropWhile Text.isBlankLine =
      numberLine (number :: numbers) :: rest :=
  List.dropWhile_cons_of_neg (by simp [isBlankLine_numberLine])

/-- The lines of a well-formed model describe it, if its transitions can be counted. -/
theorem WellFormed.describes_toLines {model : Model} (formed : model.WellFormed)
    (countable : model.transitions.length < UInt64.size) : Describes model.toLines model := by
  -- Every number of the text takes at most sixty-four bits.
  have symbols : model.alphabetSize < UInt64.size :=
    Nat.lt_of_le_of_lt formed.small.of_states.alphabetSize_le (by decide)
  have states : model.stateCount < UInt64.size :=
    Nat.lt_of_le_of_lt formed.stateCount_le (by decide)
  -- No line of a transition is blank, so that all of them count.
  have steps : model.stepLines.filter (!Text.isBlankLine ·) = model.stepLines :=
    model.filter_stepLines fun number numbers => by simp [isBlankLine_numberLine]
  refine .intro (by rw [filter_toLines, dropWhile_numberLine]) (holdsNumber_numberLine symbols)
    formed.small.of_states (dropWhile_numberLine _ _ _) (holdsNumber_numberLine states)
    formed.stateCount_le formed.small (namesBelow_numberLine states.le formed.initial)
    (namesBelow_numberLine states.le formed.finals) (dropWhile_numberLine _ _ _)
    (holdsNumber_numberLine countable) ?_
  rw [steps, stepLines, List.forall₂_map_left_iff]
  refine List.forall₂_same.2 fun step member => ?_
  obtain ⟨source, target, symbol⟩ := formed.transitions step member
  exact ⟨_, _, _, fields_numberLine _, namesBelow_numeral states.le source,
    namesBelow_numeral states.le target, namesBelow_numeral symbols.le symbol⟩

/-- The first two lines of a model text that are no comments are its second and its fourth line. -/
theorem exists_contents_toLines (model : Model) : ∃ rest, contents model.toLines =
    (numberLine [model.alphabetSize], 2) :: (numberLine [model.stateCount], 4) :: rest := by
  have titles := isCommentLine_titles
  simp only [List.forall_mem_cons] at titles
  simp [contents, toLines, numeral_eq, isCommentLine_numberLine, titles]

/-- The next line is found at once if it holds a number. -/
theorem nextContent_numberLine (part : ModelPart) (lineCount number place : Nat)
    (rest : List (String × Nat)) :
    nextContent part lineCount (((numberLine [number], place) :: rest).map entry) =
      .ok (⟨place, Text.fields (numberLine [number])⟩, rest.map entry) := by
  refine nextContent_eq_ok.2 ⟨_, _, List.dropWhile_cons_of_neg ?_, rfl⟩
  simp [isBlankLine_numberLine]

/-- A line of one number is read as this number, unless it takes more than sixty-four bits. -/
theorem single_numberLine (kind : FieldKind) (number place : Nat) :
    (⟨place, Text.fields (numberLine [number])⟩ : FieldLine).single kind =
      if number < UInt64.size then .ok number
      else .error (.invalidFormat place (.invalidField kind (Text.numeral number))) := by
  -- A numeral reads back as its number exactly when that fits a machine word.
  rw [fields_numberLine]
  show (⟨place, [Text.numeral number]⟩ : FieldLine).value kind Text.size? (Text.numeral number) = _
  rw [FieldLine.value, Text.size?]
  split_ifs with below
  · rw [Text.natural?_numeral below]
  · rw [Text.natural?_numeral_of_le (Nat.le_of_not_lt below)]
    rfl

/-- A text is refused in one of two places if the automaton would not be small enough. -/
theorem ofLines_toLines_of_not_small {model : Model} (limit : model.stateCount ≤ Capacity.maxStates)
    (large : ¬SmallEnough model.alphabetSize model.stateCount) :
    ∃ line defect, ofLines (model.toLines.map .ok) = .error (.invalidFormat line defect) ∧
      (line = 2 ∨ line = 4) := by
  obtain ⟨rest, shape⟩ := model.exists_contents_toLines
  rw [ofLines, filter_ofLines, shape]
  by_cases counted : model.alphabetSize < UInt64.size
  · by_cases small : SmallEnough model.alphabetSize 0
    · -- The alphabet alone would be small enough, and the states are too many for it.
      refine ⟨4, .relationTooLarge, ?_, .inr rfl⟩
      have states : model.stateCount < UInt64.size := Nat.lt_of_le_of_lt limit (by decide)
      refine (bind_of_ok (nextContent_numberLine _ _ _ _ _)).trans ?_
      refine (bind_of_ok ((single_numberLine _ _ _).trans (if_pos counted))).trans ?_
      refine (if_neg (by simp [fits_iff.2 small])).trans ?_
      refine (bind_of_ok (nextContent_numberLine _ _ _ _ _)).trans ?_
      refine (bind_of_ok ((single_numberLine _ _ _).trans (if_pos states))).trans ?_
      refine (if_neg (Nat.not_lt_of_le limit)).trans ?_
      exact if_pos (by simp [← fits_iff] at large ⊢; exact large)
    · -- The alphabet alone is too large.
      refine ⟨2, .alphabetTooLarge, ?_, .inl rfl⟩
      refine (bind_of_ok (nextContent_numberLine _ _ _ _ _)).trans ?_
      refine (bind_of_ok ((single_numberLine _ _ _).trans (if_pos counted))).trans ?_
      exact if_pos (by simp [← fits_iff] at small ⊢; exact small)
  · -- Its size is not even read as a number.
    refine ⟨2, .invalidField .alphabetSize (Text.numeral model.alphabetSize), ?_, .inl rfl⟩
    refine (bind_of_ok (nextContent_numberLine _ _ _ _ _)).trans ?_
    exact bind_of_error ((single_numberLine _ _ _).trans (if_neg counted))

end Model

end NfaInduction
