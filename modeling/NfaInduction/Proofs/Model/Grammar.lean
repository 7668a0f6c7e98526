import NfaInduction.Model.Reader
import NfaInduction.Proofs.Capacity
import NfaInduction.Proofs.Except
import NfaInduction.Proofs.Text.Field

/-! A model text is read exactly if its lines follow the grammar, and then as what they describe. -/

namespace NfaInduction

namespace Text

/-- Whether a line is a comment, which starts with the mark once it is trimmed. -/
def isCommentLine (text : String) : Bool := (trim text).toList.head? == some '#'

/-- Whether nothing is left of a line once it is trimmed. -/
def isBlankLine (text : String) : Bool := trim text == ""

end Text

namespace Model

/-- A line holds a number if it is its only field. -/
def HoldsNumber (text : String) (number : Nat) : Prop :=
  ∃ field, Text.fields text = [field] ∧ Text.size? field = some number

/-- A field names a number below a bound. -/
def NamesBelow (bound : Nat) (field : String) (number : Nat) : Prop :=
  Text.size? field = some number ∧ number < bound

/-- A line holds a transition if its fields are source, target and symbol. -/
def HoldsTransition (alphabetSize stateCount : Nat) (text : String) (step : Automaton.Transition) :
    Prop :=
  ∃ source target symbol, Text.fields text = [source, target, symbol] ∧
    NamesBelow stateCount source step.source ∧ NamesBelow stateCount target step.target ∧
    NamesBelow alphabetSize symbol step.symbol

/-- An automaton of this size takes no more bytes than a text may ask for. -/
def SmallEnough (alphabetSize stateCount : Nat) : Prop :=
  ∃ bytes, Capacity.matrixBytes alphabetSize stateCount = some bytes ∧
    bytes ≤ Capacity.maxMatrixBytes

/-- Whether an automaton is small enough is what the reader tests. -/
theorem fits_iff {alphabetSize stateCount : Nat} :
    Capacity.fits alphabetSize stateCount ↔ SmallEnough alphabetSize stateCount := by
  rw [Capacity.fits, Option.any_eq_true]
  simp [SmallEnough]

/-- An alphabet that is small enough has room in seventeen bits. -/
theorem SmallEnough.alphabetSize_le {alphabetSize : Nat} (small : SmallEnough alphabetSize 0) :
    alphabetSize ≤ 1 <<< 17 := by
  -- Without states there is room for one block, whose rows alone take the bytes.
  obtain ⟨bytes, taken, few⟩ := small
  have product := (Capacity.matrixBytes_eq_some.1 taken).2.1
  have room : Capacity.grown 0 = 256 := by decide +kernel
  rw [room] at product
  simp only [Word.countFor, Word.width, Capacity.maxMatrixBytes] at product few
  omega

/-- The lines of a text describe a model if they follow the grammar of model texts. -/
inductive Describes (texts : List String) (model : Model) : Prop where
  /--
  Comments stand anywhere and do not count.

  The alphabet, the states and the number of transitions each have the next line that is not blank.
  The flags have the two lines behind the states, blank or not.
  Every line behind the number of transitions holds one of them or is blank.
  -/
  | intro {size count initial finals declared : String} {afterSize afterFlags steps : List String}
      (sizeLine : (texts.filter (!Text.isCommentLine ·)).dropWhile Text.isBlankLine = size :: afterSize)
      (alphabetSize : HoldsNumber size model.alphabetSize)
      (alphabetSmall : SmallEnough model.alphabetSize 0)
      (countLine : afterSize.dropWhile Text.isBlankLine = count :: initial :: finals :: afterFlags)
      (stateCount : HoldsNumber count model.stateCount)
      (stateLimit : model.stateCount ≤ Capacity.maxStates)
      (relationSmall : SmallEnough model.alphabetSize model.stateCount)
      (initialStates : List.Forall₂ (NamesBelow model.stateCount) (Text.fields initial) model.initial)
      (finalStates : List.Forall₂ (NamesBelow model.stateCount) (Text.fields finals) model.finals)
      (declaredLine : afterFlags.dropWhile Text.isBlankLine = declared :: steps)
      (transitionCount : HoldsNumber declared model.transitions.length)
      (transitions : List.Forall₂ (HoldsTransition model.alphabetSize model.stateCount)
        (steps.filter (!Text.isBlankLine ·)) model.transitions)

end Model

section Except

variable {ε α β : Type}

/-- Behind a check there is a result if the check does not refuse and the rest has one. -/
theorem check_eq_ok {line : FieldLine} {defect : Defect} {refused : Prop} [Decidable refused]
    {next : α → Except Error β} {rest : Except Error β} {result : β} :
    (if refused then line.refuse defect >>= next else rest) = .ok result ↔
      ¬refused ∧ rest = .ok result := by
  -- A refusal is never a result.
  split
  · rename_i fails
    simp [FieldLine.refuse, Bind.bind, Except.bind, fails]
  · rename_i passes
    simp [passes]

/-- A result that is checked in the end is there if the check accepts it. -/
theorem accepted_eq_ok {line : FieldLine} {defect : Defect} {accepted : Prop} [Decidable accepted]
    {found result : β} :
    (if accepted then (pure found : Except Error β) else line.refuse defect) = .ok result ↔
      accepted ∧ found = result := by
  -- A refusal is never a result.
  split
  · rename_i passes
    simp [passes, Pure.pure, Except.pure]
  · rename_i fails
    simp [FieldLine.refuse, fails]

end Except

namespace FieldLine

/-- A line has no fields exactly if it is blank. -/
theorem isBlank_fields (number : Nat) (text : String) :
    isBlank ⟨number, Text.fields text⟩ = Text.isBlankLine text := by
  -- A line without fields holds nothing but blanks, which are trimmed.
  rw [isBlank, Text.isBlankLine, Bool.eq_iff_iff, List.isEmpty_iff, beq_iff_eq,
    Text.fields_eq_nil_iff]

/-- The first field of a line starts with the comment mark exactly if the line is a comment. -/
theorem isComment_fields (number : Nat) (text : String) :
    isComment ⟨number, Text.fields text⟩ = Text.isCommentLine text := by
  rw [isComment, Text.head?_fields, Text.isCommentLine]

/-- A field has the value that it is parsed as. -/
theorem value_eq_ok {α : Type} {line : FieldLine} {kind : FieldKind} {parse : String → Option α}
    {field : String} {found : α} :
    line.value kind parse field = .ok found ↔ parse field = some found := by
  -- A field that is not parsed is refused.
  rw [value]
  cases parse field with
  | none => simp [refuse]
  | some other => simp

/-- A line with one field that is a number is read as this number. -/
theorem single_eq_ok {line : FieldLine} {kind : FieldKind} {number : Nat} :
    line.single kind = .ok number ↔
      ∃ field, line.fields = [field] ∧ Text.size? field = some number := by
  -- Any other number of fields is refused.
  rw [single]
  split
  · rename_i field alone
    simp [value_eq_ok, alone]
  · rename_i several
    simp only [refuse, reduceCtorEq, false_iff, not_exists, not_and]
    intro field alone
    exact absurd alone (several field)

end FieldLine

namespace Model

/-- The lines of a text that are no comments, each with its place among all lines. -/
def contents (texts : List String) : List (String × Nat) :=
  (texts.zipIdx 1).filter fun line => !Text.isCommentLine line.1

/-- The entry of a line in its place. -/
def entry (line : String × Nat) : Entry := .ok ⟨line.2, Text.fields line.1⟩

/-- Places aside, the lines chosen by their text are those that would be chosen without places. -/
theorem map_fst_filter (chosen : String → Bool) (texts : List String) :
    ((texts.zipIdx 1).filter (chosen ·.1)).map Prod.fst = texts.filter chosen := by
  -- The numbers of the lines have no influence on which are chosen.
  have lines : (texts.zipIdx 1).map Prod.fst = texts := List.zipIdx_map_fst 1 texts
  conv => rhs; rw [← lines, List.filter_map]
  rfl

/-- Places aside, the contents of a text are its lines without the comments. -/
theorem map_fst_contents (texts : List String) :
    (contents texts).map Prod.fst = texts.filter (!Text.isCommentLine ·) :=
  map_fst_filter (!Text.isCommentLine ·) texts

/-- Every line has its entry, in the order of the lines. -/
theorem ofLines_map_ok (texts : List String) :
    FieldLine.ofLines (texts.map .ok) = (texts.zipIdx 1).map entry := by
  rw [FieldLine.ofLines, List.zipIdx_map, List.map_map]
  rfl

/-- Entries outside a class of lines are those of the lines whose text does not belong to it. -/
theorem filter_map_entry {belongs : FieldLine → Bool} {test : String → Bool}
    (same : ∀ number text, belongs ⟨number, Text.fields text⟩ = test text)
    (lines : List (String × Nat)) :
    (lines.map entry).filter (FieldLine.outside belongs) =
      (lines.filter (!test ·.1)).map entry := by
  -- Whether a line belongs is seen on its text.
  rw [List.filter_map]
  refine congrArg (List.map entry) (List.filter_congr fun line _ => ?_)
  rw [Function.comp_apply, entry, FieldLine.outside, same]

/-- The entries that count are those of the contents. -/
theorem filter_ofLines (texts : List String) :
    (FieldLine.ofLines (texts.map .ok)).filter (FieldLine.outside FieldLine.isComment) =
      (contents texts).map entry := by
  rw [ofLines_map_ok, filter_map_entry FieldLine.isComment_fields, contents]

/-- Behind blank lines the same line comes next with its place and without. -/
theorem dropWhile_map_fst {lines : List (String × Nat)} {text : String} {texts : List String} :
    (lines.map Prod.fst).dropWhile Text.isBlankLine = text :: texts ↔
      ∃ line rest, lines.dropWhile (Text.isBlankLine ·.1) = line :: rest ∧ line.1 = text ∧
        rest.map Prod.fst = texts := by
  rw [List.dropWhile_map, List.map_eq_cons_iff]
  rfl

/-- The next line that is not blank is found behind the blank ones. -/
theorem nextContent_eq_ok {part : ModelPart} {lineCount : Nat} {lines : List (String × Nat)}
    {found : FieldLine × List Entry} :
    nextContent part lineCount (lines.map entry) = .ok found ↔
      ∃ line rest, lines.dropWhile (Text.isBlankLine ·.1) = line :: rest ∧
        found = (⟨line.2, Text.fields line.1⟩, rest.map entry) := by
  -- The induction goes along the lines, of which blank ones are passed.
  induction lines with
  | nil => simp [nextContent]
  | cons line rest ih =>
    have opened : nextContent part lineCount ((line :: rest).map entry) =
        if Text.isBlankLine line.1 then nextContent part lineCount (rest.map entry)
        else .ok (⟨line.2, Text.fields line.1⟩, rest.map entry) := by
      rw [← FieldLine.isBlank_fields line.2]
      rfl
    rw [opened, List.dropWhile_cons]
    cases Text.isBlankLine line.1 with
    | true => exact ih
    | false => simp [eq_comm]

/-- The next line is the first of those that are left. -/
theorem nextLine_eq_ok {part : ModelPart} {lineCount : Nat} {lines : List (String × Nat)}
    {found : FieldLine × List Entry} :
    nextLine part lineCount (lines.map entry) = .ok found ↔
      ∃ line rest, lines = line :: rest ∧
        found = (⟨line.2, Text.fields line.1⟩, rest.map entry) := by
  -- There has to be a line.
  cases lines with
  | nil => simp [nextLine]
  | cons line rest =>
    show Except.ok (_, _) = .ok found ↔ _
    simp [eq_comm]

/-- A state is read from a field that names it. -/
theorem readState_eq_ok {stateCount state : Nat} {line : FieldLine} {field : String} :
    readState stateCount line field = .ok state ↔ NamesBelow stateCount field state := by
  -- The field is parsed before the number is compared.
  rw [readState, bind_eq_ok]
  constructor
  · intro read
    obtain ⟨found, parsed, read⟩ := read
    obtain ⟨below, same⟩ := accepted_eq_ok.1 read
    subst same
    exact ⟨FieldLine.value_eq_ok.1 parsed, below⟩
  · intro named
    obtain ⟨parsed, below⟩ := named
    exact ⟨state, FieldLine.value_eq_ok.2 parsed, accepted_eq_ok.2 ⟨below, rfl⟩⟩

/-- A transition is read from a line that holds it, if symbols of the alphabet have room in a word. -/
theorem readTransition_eq_ok {alphabetSize stateCount number : Nat} {text : String}
    {step : Automaton.Transition} (narrow : alphabetSize ≤ UInt32.size) :
    readTransition alphabetSize stateCount ⟨number, Text.fields text⟩ = .ok step ↔
      HoldsTransition alphabetSize stateCount text step := by
  rw [readTransition]
  constructor
  · intro read
    split at read
    · rename_i source target symbol shape
      obtain ⟨first, sourceRead, read⟩ := bind_eq_ok.1 read
      obtain ⟨last, targetRead, read⟩ := bind_eq_ok.1 read
      obtain ⟨name, symbolRead, read⟩ := bind_eq_ok.1 read
      obtain ⟨known, same⟩ := accepted_eq_ok.1 read
      subst same
      exact ⟨source, target, symbol, shape, readState_eq_ok.1 sourceRead,
        readState_eq_ok.1 targetRead,
        Text.symbol?_eq_some.1 (FieldLine.value_eq_ok.1 symbolRead), known⟩
    · cases read
  · intro holds
    obtain ⟨source, target, symbol, shape, sourceNamed, targetNamed, parsed, known⟩ := holds
    -- The symbol is the number of a word.
    have exact : (UInt32.ofNat step.symbol).toNat = step.symbol :=
      UInt32.toNat_ofNat_of_lt' (by omega)
    have read : Text.symbol? symbol = some (UInt32.ofNat step.symbol) :=
      Text.symbol?_eq_some.2 (by rw [parsed, exact])
    dsimp only
    rw [shape]
    refine bind_eq_ok.2 ⟨_, readState_eq_ok.2 sourceNamed, bind_eq_ok.2 ⟨_,
      readState_eq_ok.2 targetNamed, bind_eq_ok.2 ⟨_, FieldLine.value_eq_ok.2 read, ?_⟩⟩⟩
    rw [accepted_eq_ok, exact]
    exact ⟨known, rfl⟩

/-- What is asked of numbered items is asked of their numbers and of the items. -/
theorem forall₂_zipIdx {α β : Type} (holds : α → β → Prop) {bound start : Nat} {items : List α}
    {results : List β} :
    List.Forall₂ (fun item result => item.2 < bound ∧ holds item.1 result) (items.zipIdx start)
        results ↔
      (∀ place < items.length, start + place < bound) ∧ List.Forall₂ holds items results := by
  -- The induction goes along the items, each of which has the number behind the last one.
  induction items generalizing start results with
  | nil => simp
  | cons item rest ih =>
    have numbers : (∀ place < (item :: rest).length, start + place < bound) ↔
        start < bound ∧ ∀ place < rest.length, start + 1 + place < bound := by
      rw [List.length_cons, Nat.forall_lt_succ_left]
      simp only [Nat.add_zero, Nat.add_assoc, Nat.add_comm 1]
    cases results with
    | nil => simp
    | cons result others =>
      rw [List.zipIdx_cons, List.forall₂_cons, List.forall₂_cons, ih, numbers]
      constructor
      · intro split
        obtain ⟨⟨below, first⟩, fits, tail⟩ := split
        exact ⟨⟨below, fits⟩, first, tail⟩
      · intro whole
        obtain ⟨⟨below, fits⟩, first, tail⟩ := whole
        exact ⟨⟨below, first⟩, fits, tail⟩

/-- A row is read in its place if it is not one too many and holds a transition. -/
theorem readRow_eq_ok {alphabetSize stateCount declared found : Nat} {line : String × Nat}
    {step : Automaton.Transition} (narrow : alphabetSize ≤ UInt32.size) :
    (do
      let line ← entry line
      if declared ≤ found then line.refuse (.tooManyTransitions declared)
      readTransition alphabetSize stateCount line) = .ok step ↔
    found < declared ∧ HoldsTransition alphabetSize stateCount line.1 step := by
  -- The count is checked before the row is read.
  rw [bind_eq_ok]
  constructor
  · intro read
    obtain ⟨held, entered, read⟩ := read
    cases entered
    obtain ⟨few, read⟩ := check_eq_ok.1 read
    exact ⟨by omega, (readTransition_eq_ok narrow).1 read⟩
  · intro holds
    exact ⟨_, rfl, check_eq_ok.2 ⟨by omega, (readTransition_eq_ok narrow).2 holds.2⟩⟩

/-- The lines of transitions are read if all of them hold one and there are as many as declared. -/
theorem readTransitions_eq_ok {alphabetSize stateCount declared lineCount : Nat}
    {lines : List (String × Nat)} {steps : List Automaton.Transition}
    (narrow : alphabetSize ≤ UInt32.size) :
    readTransitions alphabetSize stateCount declared lineCount (lines.map entry) = .ok steps ↔
      List.Forall₂ (HoldsTransition alphabetSize stateCount)
        ((lines.map Prod.fst).filter (!Text.isBlankLine ·)) steps ∧ steps.length = declared := by
  have texts : (lines.map Prod.fst).filter (!Text.isBlankLine ·) =
      (lines.filter (!Text.isBlankLine ·.1)).map Prod.fst := by
    rw [List.filter_map]
    rfl
  rw [readTransitions, filter_map_entry FieldLine.isBlank_fields, texts, List.forall₂_map_left_iff,
    bind_eq_ok]
  generalize lines.filter (!Text.isBlankLine ·.1) = rows
  simp only [mapM_eq_ok, List.zipIdx_map, List.forall₂_map_left_iff, Prod.map, id,
    readRow_eq_ok narrow, List.length_map]
  have numbered : ∀ steps : List Automaton.Transition, List.Forall₂ (fun row step =>
        row.2 < declared ∧ HoldsTransition alphabetSize stateCount row.1.1 step) rows.zipIdx steps ↔
      (∀ place < rows.length, 0 + place < declared) ∧ List.Forall₂
        (fun row step => HoldsTransition alphabetSize stateCount row.1 step) rows steps :=
    fun _ => forall₂_zipIdx fun (row : String × Nat) => HoldsTransition alphabetSize stateCount row.1
  constructor
  · intro read
    obtain ⟨found, listed, done⟩ := read
    obtain ⟨fits, held⟩ := (numbered found).1 listed
    have count := held.length_eq
    split at done
    · cases done
    · cases done
      refine ⟨held, ?_⟩
      -- A row behind the declared number would be numbered by it.
      have enough : rows.length ≤ declared := by
        refine Nat.le_of_not_lt fun more => ?_
        have := fits declared more
        omega
      omega
  · intro whole
    obtain ⟨held, count⟩ := whole
    have same := held.length_eq
    refine ⟨steps, (numbered steps).2 ⟨fun place below => by omega, held⟩, ?_⟩
    rw [if_neg (by omega)]
    rfl

/-- What is read from a text is described by its lines. -/
theorem describes_of_ofLines {texts : List String} {model : Model}
    (read : ofLines (texts.map .ok) = .ok model) : Describes texts model := by
  rw [ofLines, filter_ofLines] at read
  -- Each part was read, and what was read tells what its lines look like.
  -- The alphabet comes first and must be small enough by itself.
  obtain ⟨_, sizeFound, read⟩ := bind_eq_ok.1 read
  obtain ⟨sizeLine, afterSize, sizeSplit, rfl⟩ := nextContent_eq_ok.1 sizeFound
  obtain ⟨alphabetSize, sizeRead, read⟩ := bind_eq_ok.1 read
  obtain ⟨alphabetFits, read⟩ := check_eq_ok.1 read
  -- The number of states is checked twice.
  obtain ⟨_, countFound, read⟩ := bind_eq_ok.1 read
  obtain ⟨countLine, afterCount, countSplit, rfl⟩ := nextContent_eq_ok.1 countFound
  obtain ⟨stateCount, countRead, read⟩ := bind_eq_ok.1 read
  obtain ⟨limit, read⟩ := check_eq_ok.1 read
  obtain ⟨relationFits, read⟩ := check_eq_ok.1 read
  -- The two lines of flags follow at once.
  obtain ⟨_, initialFound, read⟩ := bind_eq_ok.1 read
  obtain ⟨initialLine, afterInitial, rfl, rfl⟩ := nextLine_eq_ok.1 initialFound
  obtain ⟨initial, initialRead, read⟩ := bind_eq_ok.1 read
  obtain ⟨_, finalsFound, read⟩ := bind_eq_ok.1 read
  obtain ⟨finalsLine, afterFinals, rfl, rfl⟩ := nextLine_eq_ok.1 finalsFound
  obtain ⟨finals, finalsRead, read⟩ := bind_eq_ok.1 read
  -- The transitions are those behind their number.
  obtain ⟨_, declaredFound, read⟩ := bind_eq_ok.1 read
  obtain ⟨declaredLine, rest, declaredSplit, rfl⟩ := nextContent_eq_ok.1 declaredFound
  obtain ⟨declared, declaredRead, read⟩ := bind_eq_ok.1 read
  obtain ⟨steps, stepsRead, read⟩ := bind_eq_ok.1 read
  cases read
  rw [Bool.not_eq_true', Bool.not_eq_false] at alphabetFits relationFits
  -- An alphabet that is small enough leaves no symbol beyond a word, which the reader relies on.
  have small := fits_iff.1 alphabetFits
  have narrow : alphabetSize ≤ UInt32.size :=
    Nat.le_trans small.alphabetSize_le (by decide)
  obtain ⟨held, rfl⟩ := (readTransitions_eq_ok narrow).1 stepsRead
  rw [mapM_eq_ok] at initialRead finalsRead
  refine .intro ?_ (FieldLine.single_eq_ok.1 sizeRead) small
    (dropWhile_map_fst.2 ⟨_, _, countSplit, rfl, rfl⟩) (FieldLine.single_eq_ok.1 countRead)
    (Nat.le_of_not_lt limit) (fits_iff.1 relationFits)
    (initialRead.imp fun _ _ => readState_eq_ok.1) (finalsRead.imp fun _ _ => readState_eq_ok.1)
    (dropWhile_map_fst.2 ⟨_, _, declaredSplit, rfl, rfl⟩)
    (FieldLine.single_eq_ok.1 declaredRead) held
  rw [← map_fst_contents]
  exact dropWhile_map_fst.2 ⟨_, _, sizeSplit, rfl, rfl⟩

/-- Lines that describe a model are read as this model. -/
theorem Describes.ofLines_eq {texts : List String} {model : Model}
    (described : Describes texts model) : ofLines (texts.map .ok) = .ok model := by
  rw [ofLines, filter_ofLines]
  cases described with
  | intro sizeLine alphabetSize alphabetSmall countLine stateCount stateLimit relationSmall
      initialStates finalStates declaredLine transitionCount transitions =>
    -- The lines are found in their places again, each of them with what it holds.
    rw [← map_fst_contents] at sizeLine
    obtain ⟨size, afterSize, sizeSplit, rfl, rfl⟩ := dropWhile_map_fst.1 sizeLine
    obtain ⟨count, afterCount, countSplit, rfl, flagTexts⟩ := dropWhile_map_fst.1 countLine
    obtain ⟨initial, afterInitial, rfl, rfl, finalTexts⟩ := List.map_eq_cons_iff.1 flagTexts
    obtain ⟨finals, afterFinals, rfl, rfl, rfl⟩ := List.map_eq_cons_iff.1 finalTexts
    obtain ⟨declared, rest, declaredSplit, rfl, rfl⟩ := dropWhile_map_fst.1 declaredLine
    have narrow : model.alphabetSize ≤ UInt32.size :=
      Nat.le_trans alphabetSmall.alphabetSize_le (by decide)
    -- The reader finds each part where the grammar has it, and no check refuses.
    refine bind_eq_ok.2 ⟨_, nextContent_eq_ok.2 ⟨_, _, sizeSplit, rfl⟩, ?_⟩
    refine bind_eq_ok.2 ⟨_, FieldLine.single_eq_ok.2 alphabetSize, ?_⟩
    refine check_eq_ok.2 ⟨by simp [fits_iff.2 alphabetSmall], ?_⟩
    refine bind_eq_ok.2 ⟨_, nextContent_eq_ok.2 ⟨_, _, countSplit, rfl⟩, ?_⟩
    refine bind_eq_ok.2 ⟨_, FieldLine.single_eq_ok.2 stateCount, ?_⟩
    refine check_eq_ok.2 ⟨by omega, ?_⟩
    refine check_eq_ok.2 ⟨by simp [fits_iff.2 relationSmall], ?_⟩
    refine bind_eq_ok.2 ⟨_, nextLine_eq_ok.2 ⟨_, _, rfl, rfl⟩, ?_⟩
    refine bind_eq_ok.2 ⟨_, mapM_eq_ok.2 (initialStates.imp fun _ _ => readState_eq_ok.2), ?_⟩
    refine bind_eq_ok.2 ⟨_, nextLine_eq_ok.2 ⟨_, _, rfl, rfl⟩, ?_⟩
    refine bind_eq_ok.2 ⟨_, mapM_eq_ok.2 (finalStates.imp fun _ _ => readState_eq_ok.2), ?_⟩
    refine bind_eq_ok.2 ⟨_, nextContent_eq_ok.2 ⟨_, _, declaredSplit, rfl⟩, ?_⟩
    refine bind_eq_ok.2 ⟨_, FieldLine.single_eq_ok.2 transitionCount, ?_⟩
    exact bind_eq_ok.2 ⟨_, (readTransitions_eq_ok narrow).2 ⟨transitions, rfl⟩, rfl⟩

/-- A text is read as a model exactly if its lines describe the model. -/
theorem ofLines_eq_ok {texts : List String} {model : Model} :
    ofLines (texts.map .ok) = .ok model ↔ Describes texts model :=
  ⟨describes_of_ofLines, Describes.ofLines_eq⟩

end Model

end NfaInduction
