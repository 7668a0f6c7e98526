import NfaInduction.Proofs.Command.Desk
import NfaInduction.Proofs.Evaluation.Loaded
import NfaInduction.Proofs.Evaluation.Progress

/-! A report lists the class of each sample under its header, and the totals count these lines. -/

namespace NfaInduction

namespace Report

/-- The line about a sample: its index among those with its label, and its class. -/
def classLine (index : Nat) (accepted : Bool) : String :=
  "Evaluation # " ++ Text.numeral index ++ " class: " ++ if accepted then "1" else "0"

/-- The lines about samples with one label, in order, which come under a title if there are any. -/
def part (title : String) (classes : List Bool) : List String :=
  (if classes = [] then [] else [title]) ++
    classes.zipIdx.map fun (accepted, index) => classLine index accepted

/-- The two lines at the end, with given numbers. -/
def totals (truePositives positives trueNegatives negatives : Nat) : List String :=
  ["TP: " ++ Text.numeral truePositives ++ "/" ++ Text.numeral positives ++
      " TN: " ++ Text.numeral trueNegatives ++ "/" ++ Text.numeral negatives,
    "Total: " ++ Text.numeral (positives + negatives) ++
      " Total P: " ++ Text.numeral positives ++ " Total N: " ++ Text.numeral negatives]

/-- Whether a line is one about a sample. -/
def isClassLine (line : String) : Bool := "Evaluation # ".toList.isPrefixOf line.toList

/-- Whether a line ends with the digit of a class. -/
def isOfClass (accepted : Bool) (line : String) : Bool :=
  line.toList.getLast? = some (if accepted then '1' else '0')

/-- The lines about samples right below a title. -/
def under (title : String) (lines : List String) : List String :=
  (lines.dropWhile (· ≠ title)).tail.takeWhile isClassLine

/-- The numeral of a class is its digit. -/
theorem numeral_toNat (accepted : Bool) :
    Text.numeral accepted.toNat = if accepted then "1" else "0" := by
  cases accepted <;> decide

/-- The line of a decision tells the class. -/
theorem decisionLine_eq (label : Label) (index : Nat) (accepted : Bool) :
    decisionLine ⟨label, index, accepted⟩ = classLine index accepted := by
  rw [classLine, ← numeral_toNat]
  rfl

/-- The lines of the totals tell the numbers. -/
theorem totalLines_eq (tally : Tally) : totalLines tally =
    totals tally.truePositives tally.positives tally.trueNegatives tally.negatives := rfl

/-- Decisions with later indices come without a header. -/
theorem flatMap_decisionLines_succ (verdict : Sample → Bool) (label : Label) (index : Nat)
    (samples : List Sample) :
    (Trial.decisionsFrom verdict label (index + 1) samples).flatMap decisionLines =
      ((samples.map verdict).zipIdx (index + 1)).map fun (accepted, place) =>
        classLine place accepted := by
  -- Behind the first index no line is a header, which the induction along the samples carries on.
  induction samples generalizing index with
  | nil => rfl
  | cons sample rest ih =>
    have first : decisionLines ⟨label, index + 1, verdict sample⟩ =
        [classLine (index + 1) (verdict sample)] := congrArg ([·]) (decisionLine_eq _ _ _)
    exact congrArg₂ (· ++ ·) first (ih (index + 1))

/-- Decisions on samples with one label make up a part of the report. -/
theorem flatMap_decisionLines (verdict : Sample → Bool) (label : Label) (samples : List Sample) :
    (Trial.decisionsFrom verdict label 0 samples).flatMap decisionLines =
      part (header label) (samples.map verdict) := by
  -- The header comes with the first decision, and without any sample there is none.
  cases samples with
  | nil => rfl
  | cons sample rest =>
    have first : decisionLines ⟨label, 0, verdict sample⟩ =
        [header label, classLine 0 (verdict sample)] :=
      congrArg ([header label, ·]) (decisionLine_eq _ _ _)
    exact congrArg₂ (· ++ ·) first (flatMap_decisionLines_succ verdict label 0 rest)

/-- A line about a sample is one. -/
theorem isClassLine_classLine (index : Nat) (accepted : Bool) :
    isClassLine (classLine index accepted) := by
  -- The index and the class only follow what all these lines begin with.
  rw [isClassLine, List.isPrefixOf_iff_prefix, classLine, String.append_assoc, String.append_assoc,
    String.toList_append]
  exact List.prefix_append _ _

/-- A line about a sample ends with its class. -/
theorem isOfClass_classLine (index : Nat) (accepted asked : Bool) :
    isOfClass asked (classLine index accepted) = (accepted == asked) := by
  -- The class is the last character of the line.
  have last : (classLine index accepted).toList.getLast? = some (if accepted then '1' else '0') := by
    rw [classLine, String.toList_append]
    cases accepted <;> exact List.getLast?_append
  rw [isOfClass, last]
  cases accepted <;> cases asked <;> decide

/-- Lines about samples start with a letter of their own. -/
theorem isClassLine_of_head? {line : String} {first : Char} (starts : line.toList.head? = some first)
    (other : first ≠ 'E') : isClassLine line = false := by
  -- What all lines of decisions begin with begins with another character.
  refine Bool.eq_false_iff.2 fun told => other ?_
  rw [isClassLine, List.isPrefixOf_iff_prefix] at told
  obtain ⟨rest, same⟩ := told
  rw [← same] at starts
  exact (Option.some.inj starts).symm

section Totals

variable {truePositives positives trueNegatives negatives : Nat}

/-- Lines of the totals start with another letter than any other line. -/
theorem head?_of_mem_totals {line : String}
    (member : line ∈ totals truePositives positives trueNegatives negatives) :
    line.toList.head? = some 'T' := by
  -- Both lines of the totals begin with a fixed word.
  simp only [totals, List.mem_cons, List.not_mem_nil, or_false] at member
  rcases member with rfl | rfl
  · simp [String.toList_append]
  · simp [String.toList_append]

/-- A title that starts with another letter is not among the totals. -/
theorem not_mem_totals {title : String} (other : title.toList.head? ≠ some 'T') :
    title ∉ totals truePositives positives trueNegatives negatives :=
  fun member => other (head?_of_mem_totals member)

/-- The lines about samples end where the totals start. -/
theorem takeWhile_totals :
    (totals truePositives positives trueNegatives negatives).takeWhile isClassLine = [] := by
  refine List.takeWhile_eq_nil_iff.2 fun filled => Bool.eq_false_iff.1 ?_
  exact isClassLine_of_head? (head?_of_mem_totals (List.getElem_mem filled)) (by decide)

/-- The lines about samples end where the next part starts, or the totals do. -/
theorem takeWhile_part {title : String} (plain : isClassLine title = false) (classes : List Bool) :
    (part title classes ++ totals truePositives positives trueNegatives negatives).takeWhile
      isClassLine = [] := by
  -- A part without classes has no lines at all, and any other one begins with its header.
  cases classes with
  | nil => exact takeWhile_totals
  | cons => exact List.takeWhile_cons_of_neg (by simp [plain])

end Totals

/-- The lines below a title are those of its part, whatever other lines stand in front and behind. -/
theorem under_part {title : String} {classes : List Bool} {front back : List String}
    (before : title ∉ front) (behind : title ∉ back) (ended : back.takeWhile isClassLine = []) :
    under title (front ++ part title classes ++ back) =
      classes.zipIdx.map fun (accepted, index) => classLine index accepted := by
  -- The lines in front are skipped, and the lines of the part end where those behind it begin.
  have skipped : ∀ line ∈ front, decide (line ≠ title) = true := by
    intro line member
    exact decide_eq_true fun same => before (same ▸ member)
  rw [under, List.append_assoc, List.dropWhile_append_of_pos skipped]
  cases classes with
  | nil =>
    have none : back.dropWhile (· ≠ title) = [] := by
      rw [List.dropWhile_eq_nil_iff]
      exact fun line member => decide_eq_true fun same => behind (same ▸ member)
    change (back.dropWhile (· ≠ title)).tail.takeWhile isClassLine = []
    rw [none]
    rfl
  | cons first rest =>
    let lines := ((first :: rest).zipIdx).map fun (accepted, index) => classLine index accepted
    have told : ∀ line ∈ lines, isClassLine line := by
      intro line member
      obtain ⟨⟨accepted, index⟩, _, rfl⟩ := List.mem_map.1 member
      exact isClassLine_classLine index accepted
    have found : (title :: (lines ++ back)).dropWhile (· ≠ title) = title :: (lines ++ back) :=
      List.dropWhile_cons_of_neg (by simp)
    change ((title :: (lines ++ back)).dropWhile (· ≠ title)).tail.takeWhile isClassLine = lines
    rw [found, List.tail_cons, List.takeWhile_append_of_pos told, ended, List.append_nil]

/-- A title is in no part with another one, unless it looks like a line about a sample. -/
theorem not_mem_part {title other : String} (different : title ≠ other)
    (plain : isClassLine title = false) (classes : List Bool) : title ∉ part other classes := by
  -- The header of the part is another one, and no line of a decision is a header.
  rw [part, List.mem_append, not_or]
  refine ⟨?_, fun listed => ?_⟩
  · split
    · exact List.not_mem_nil
    · simpa using different
  · obtain ⟨⟨accepted, index⟩, _, rfl⟩ := List.mem_map.1 listed
    simp [isClassLine_classLine] at plain

/-- A report with given classes of the positive and the negative samples. -/
def written (positives negatives : List Bool) : List String :=
  part "Positive samples" positives ++ part "Negative samples" negatives ++
    totals (positives.countP id) positives.length (negatives.countP (!·)) negatives.length

/-- The lines under the positive header are those about the positive samples. -/
theorem under_positive (positives negatives : List Bool) :
    under "Positive samples" (written positives negatives) =
      positives.zipIdx.map fun (accepted, index) => classLine index accepted := by
  -- No other line of the report is this header.
  rw [written, List.append_assoc]
  refine under_part List.not_mem_nil (List.not_mem_append ?_ ?_) (takeWhile_part (by decide) negatives)
  · exact not_mem_part (by decide) (by decide) negatives
  · exact not_mem_totals (by decide)

/-- The lines under the negative header are those about the negative samples. -/
theorem under_negative (positives negatives : List Bool) :
    under "Negative samples" (written positives negatives) =
      negatives.zipIdx.map fun (accepted, index) => classLine index accepted :=
  under_part (not_mem_part (by decide) (by decide) positives) (not_mem_totals (by decide))
    takeWhile_totals

/-- As many lines about samples end with a class as samples have it. -/
theorem countP_isOfClass (classes : List Bool) (asked : Bool) :
    (classes.zipIdx.map fun (accepted, index) => classLine index accepted).countP (isOfClass asked) =
      classes.countP (· == asked) := by
  -- Each line gives away the class that it was written for.
  conv_rhs => rw [← List.zipIdx_map_fst 0 classes, List.countP_map]
  rw [List.countP_map]
  exact List.countP_congr fun (accepted, index) _ => by simp [isOfClass_classLine]

end Report

namespace Committee

/-- Votes are counted only where every member decides. -/
theorem exists_isMatch_of_votesOf {sample : Sample} {members : List Automaton} {votes : Nat}
    (voted : votesOf sample members = .ok votes) :
    ∀ member ∈ members, ∃ accepted, member.isMatch sample = .ok accepted := by
  -- The votes are counted one by one, and the count would end at the first member without one.
  induction members generalizing votes with
  | nil => exact List.forall_mem_nil _
  | cons member rest ih =>
    obtain ⟨accepted, first, voted⟩ := bind_eq_ok.1 voted
    obtain ⟨others, later, _⟩ := bind_eq_ok.1 voted
    exact List.forall_mem_cons.2 ⟨⟨accepted, first⟩, ih later⟩

end Committee

/-- What decides about samples. -/
inductive Evaluator where
  /-- An automaton by itself. -/
  | single (automaton : Automaton)
  /-- A committee of some automata. -/
  | majority (committee : Committee)

namespace Evaluator

/-- How an evaluator decides, or the fault of a symbol outside an alphabet. -/
def classifier : Evaluator → Classifier
  | single automaton => automaton.isMatch
  | majority committee => committee.accepts

/-- Whether an evaluator accepts a sample that all its automata decide. -/
def verdict : Evaluator → Sample → Bool
  | single automaton, sample => Classifier.verdict automaton.isMatch sample
  | majority committee, sample =>
    committee.members.length <
      2 * committee.members.countP fun member => Classifier.verdict member.isMatch sample

/-- Where an evaluator decides, it gives its verdict. -/
theorem classifier_eq {evaluator : Evaluator} {sample : Sample}
    (decided : ∃ accepted, evaluator.classifier sample = .ok accepted) :
    evaluator.classifier sample = .ok (evaluator.verdict sample) := by
  -- A committee decides only if all of its members do.
  cases evaluator with
  | single automaton =>
    have alone : ∃ accepted, automaton.isMatch sample = .ok accepted := decided
    exact Classifier.eq_ok_verdict alone
  | majority committee =>
    obtain ⟨accepted, decided⟩ := decided
    obtain ⟨votes, voted, _⟩ := bind_eq_ok.1 decided
    exact Committee.accepts_eq fun member present =>
      Classifier.eq_ok_verdict (Committee.exists_isMatch_of_votesOf voted member present)

end Evaluator

/-- A report about some samples has a line for each of them, and its totals count these lines. -/
structure Report.AddsUp (verdict : Sample → Bool) (samples : SampleSet) (report : List String)
    (tally : Tally) : Prop where
  /-- The lines are those of both parts, with a header over each that is not empty, and the totals. -/
  lines : report =
    part "Positive samples" (samples.positives.map verdict) ++
      part "Negative samples" (samples.negatives.map verdict) ++
      totals tally.truePositives tally.positives tally.trueNegatives tally.negatives
  /-- The right ones of the positive samples are the lines of the accepted class under their header. -/
  truePositives : tally.truePositives =
    (under "Positive samples" report).countP (isOfClass true)
  /-- The right ones of the negative samples are the lines of the other class under their header. -/
  trueNegatives : tally.trueNegatives =
    (under "Negative samples" report).countP (isOfClass false)
  /-- The positive samples are counted, each of which has a line under the header. -/
  positives : tally.positives = samples.positives.length ∧
    (under "Positive samples" report).length = samples.positives.length
  /-- The negative samples are counted, each of which has a line under the header. -/
  negatives : tally.negatives = samples.negatives.length ∧
    (under "Negative samples" report).length = samples.negatives.length
  /-- All samples are counted. -/
  total : tally.total = samples.size
  /-- The right decisions are those in which class and label agree. -/
  correct : tally.correct =
    samples.labeled.countP fun (label, sample) => verdict sample = decide (label = .positive)

namespace Report

/-- A report on verdicts adds up. -/
theorem addsUp_ofVerdict (verdict : Sample → Bool) (samples : SampleSet) :
    AddsUp verdict samples
      (written (samples.positives.map verdict) (samples.negatives.map verdict))
      (Tally.ofVerdict verdict samples) where
  -- Each number of the report is counted on the lines under its header.
  lines := by
    simp [written, Tally.ofVerdict, List.countP_map, Function.comp_def]
  truePositives := by
    rw [under_positive, countP_isOfClass, List.countP_map]
    simp [Tally.ofVerdict, Function.comp_def]
  trueNegatives := by
    rw [under_negative, countP_isOfClass, List.countP_map]
    simp [Tally.ofVerdict, Function.comp_def]
  positives := ⟨rfl, by simp [under_positive]⟩
  negatives := ⟨rfl, by simp [under_negative]⟩
  total := rfl
  correct := by
    simp [Tally.correct, Tally.ofVerdict, SampleSet.labeled, List.countP_map, Function.comp_def]

end Report

namespace Command

/-- A trial without a fault is reported in a file, and then its summary is shown. -/
theorem carryOut_evaluate {desk : Desk} {path : String} {place : FileTree.Place}
    (placed : desk.tree.placeFor path = .ok place) (coloring : Coloring) {classifier : Classifier}
    {samples : SampleSet} (faultless : (Trial.run classifier samples).fault = none) :
    ∃ later, carryOut (evaluate coloring classifier samples path) desk = (.ok (), later) ∧
      later.tree.find? place = some
        (Text.ofLines (Report.lines (Trial.run classifier samples).decisions)).toUTF8 := by
  -- Whether there is color is asked behind the report, and makes no difference to it.
  obtain ⟨later, wrote, content, _⟩ :=
    carryOut_writeFile placed (Report.lines (Trial.run classifier samples).decisions)
  rw [evaluate]
  simp only [faultless, carryOut_bind, wrote]
  cases coloring with
  | never => exact ⟨_, rfl, content⟩
  | always => exact ⟨_, rfl, content⟩
  | auto => exact ⟨_, rfl, content⟩

/--
Where an evaluator decides all samples, the report adds up, and it is what is written.

The counters and lines are those of a loop that tells about each decision before it counts it.
-/
theorem evaluate_addsUp {evaluator : Evaluator} {samples : SampleSet}
    (decided : ∀ sample ∈ samples.positives ++ samples.negatives,
      ∃ accepted, evaluator.classifier sample = .ok accepted) :
    let trial := Trial.run evaluator.classifier samples
    let report := Report.lines trial.decisions
    let tally := Tally.ofDecisions trial.decisions
    (∀ sample ∈ samples.positives ++ samples.negatives,
      evaluator.classifier sample = .ok (evaluator.verdict sample)) ∧
    Report.AddsUp evaluator.verdict samples report tally ∧
    (∃ lines, Progress.judgeAll evaluator.classifier .start samples.labeled = (⟨tally, lines⟩, none) ∧
      lines ++ Report.totalLines tally = report) ∧
    ∀ (coloring : Coloring) (path : String) (desk : Desk) (place : FileTree.Place),
      desk.tree.placeFor path = .ok place → ∃ later,
        carryOut (evaluate coloring evaluator.classifier samples path) desk = (.ok (), later) ∧
        later.tree.find? place = some (Text.ofLines report).toUTF8 := by
  -- Where all samples are decided, the report is the one that is written from the verdicts.
  have verdicts := fun sample member => Evaluator.classifier_eq (decided sample member)
  obtain ⟨positive, negative⟩ := List.forall_mem_append.1 verdicts
  have run := Trial.run_eq positive negative
  have tally := Tally.ofDecisions_run positive negative
  have report : Report.lines (Trial.run evaluator.classifier samples).decisions =
      Report.written (samples.positives.map evaluator.verdict)
        (samples.negatives.map evaluator.verdict) := by
    rw [Report.lines, tally, run, List.flatMap_append, Report.flatMap_decisionLines,
      Report.flatMap_decisionLines, Report.totalLines_eq]
    simp [Report.written, Tally.ofVerdict, List.countP_map, Function.comp_def, Report.header]
  have faultless : (Trial.run evaluator.classifier samples).fault = none := by rw [run]
  refine ⟨verdicts, ?_, ⟨_, ?_, rfl⟩, fun coloring path desk place placed =>
    carryOut_evaluate placed coloring faultless⟩
  · rw [report, tally]
    exact Report.addsUp_ofVerdict evaluator.verdict samples
  · rw [Progress.judgeAll_labeled, faultless]
    rfl

/-- An automaton with a loop for another symbol. -/
def spinModel : Model := ⟨2, 1, [0], [0], [⟨0, 0, 0⟩]⟩

/-- Two automata, which are at odds about samples that repeat one symbol only. -/
def tiedPair : Evaluator :=
  .majority ⟨[loopModel.toAutomaton, spinModel.toAutomaton], List.cons_ne_nil _ _⟩

/-- The following samples keep to an alphabet of two symbols. -/
theorem tied_within : (∀ sample ∈ ([[], [1]] : List Sample), sample.Within 2) ∧
    ∀ sample ∈ ([[0, 1, 0]] : List Sample), sample.Within 2 := by
  simp [Sample.Within]

/-- A positive sample that both accept, one on which they are at odds, and a negative sample. -/
def tiedSet : SampleSet where
  alphabetSize := 2
  positives := [[], [1]]
  negatives := [[0, 1, 0]]
  positives_within := tied_within.1
  negatives_within := tied_within.2

/-- A tie counts as a rejection, in the lines and in the totals. -/
theorem evaluate_addsUp_tied :
    let trial := Trial.run tiedPair.classifier tiedSet
    (∀ sample ∈ tiedSet.positives ++ tiedSet.negatives,
      ∃ accepted, tiedPair.classifier sample = .ok accepted) ∧
    Report.AddsUp tiedPair.verdict tiedSet (Report.lines trial.decisions)
      (Tally.ofDecisions trial.decisions) ∧
    Report.lines trial.decisions =
      ["Positive samples", "Evaluation # 0 class: 1", "Evaluation # 1 class: 0",
        "Negative samples", "Evaluation # 0 class: 0", "TP: 1/2 TN: 1/1",
        "Total: 3 Total P: 2 Total N: 1"] := by
  -- Every sample is decided by both members, which is computed one by one.
  have answers : ∀ sample ∈ tiedSet.positives ++ tiedSet.negatives,
      (tiedPair.classifier sample).isOk := by decide +kernel
  have decided : ∀ sample ∈ tiedSet.positives ++ tiedSet.negatives,
      ∃ accepted, tiedPair.classifier sample = .ok accepted :=
    fun sample member => exists_of_isOk (answers sample member)
  obtain ⟨_, addsUp, _⟩ := evaluate_addsUp decided
  exact ⟨decided, addsUp, by decide +kernel⟩

end Command

end NfaInduction
