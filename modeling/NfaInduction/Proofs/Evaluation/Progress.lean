import NfaInduction.Evaluation.Report

/-! Counters and lines that grow with each decision come to those of the whole trial. -/

namespace NfaInduction

/-- What was counted and written while samples are put to a classifier one after another. -/
@[ext] structure Progress where
  /-- The numbers of decisions so far. -/
  tally : Tally
  /-- The lines so far. -/
  lines : List String

namespace Progress

/-- Nothing is counted or written at the start. -/
def start : Progress := ⟨⟨0, 0, 0, 0⟩, []⟩

/-- Writes the line of a decision, and a header above the one with the index zero. -/
def tell (progress : Progress) (label : Label) (index : Nat) (accepted : Bool) : Progress :=
  let lines := if index = 0 then progress.lines ++ [Report.header label] else progress.lines
  { progress with lines := lines ++ [Report.decisionLine ⟨label, index, accepted⟩] }

/-- Tells about a decision by the counter of its label as it is, and then moves the counters. -/
def judge (progress : Progress) (label : Label) (accepted : Bool) : Progress :=
  match label with
  | .positive =>
    let { tally, lines } := progress.tell .positive progress.tally.positives accepted
    let positives := tally.positives + 1
    ⟨{ tally with positives, truePositives := tally.truePositives + accepted.toNat }, lines⟩
  | .negative =>
    let { tally, lines } := progress.tell .negative progress.tally.negatives accepted
    let negatives := tally.negatives + 1
    ⟨{ tally with negatives, trueNegatives := tally.trueNegatives + (!accepted).toNat }, lines⟩

/-- Puts labeled samples to a classifier up to the first fault. -/
def judgeAll (classifier : Classifier) (progress : Progress) :
    List (Label × Sample) → Progress × Option Fault
  | [] => (progress, none)
  | (label, sample) :: rest =>
    match classifier sample with
    | .error fault => (progress, some fault)
    | .ok accepted => judgeAll classifier (progress.judge label accepted) rest

/-- The counters and the lines that some decisions come to. -/
def ofDecisions (decisions : List Decision) : Progress :=
  ⟨Tally.ofDecisions decisions, decisions.flatMap Report.decisionLines⟩

/-- The counter of a label. -/
def counter (progress : Progress) : Label → Nat
  | .positive => progress.tally.positives
  | .negative => progress.tally.negatives

variable {classifier : Classifier} {label : Label}

/-- As many decisions are counted under a label as have it. -/
theorem counter_ofDecisions (decisions : List Decision) (label : Label) :
    (ofDecisions decisions).counter label = decisions.countP (·.label = label) := by
  cases label <;> rfl

/-- The lines of a decision come behind those before. -/
theorem lines_tell (progress : Progress) (label : Label) (index : Nat) (accepted : Bool) :
    (progress.tell label index accepted).lines =
      progress.lines ++ Report.decisionLines ⟨label, index, accepted⟩ := by
  rw [tell, Report.decisionLines]
  by_cases first : index = 0
  · simp [first]
  · simp [first]

/-- A decision more is counted and told, with the counter of its label as its index. -/
theorem judge_ofDecisions (decisions : List Decision) (label : Label) (accepted : Bool) :
    (ofDecisions decisions).judge label accepted =
      ofDecisions (decisions ++ [⟨label, (ofDecisions decisions).counter label, accepted⟩]) := by
  -- The label picks which counters move; the appended line is the decision's own.
  cases label with
  | positive =>
    refine Progress.ext ?_ ?_
    · cases accepted <;> simp [judge, tell, ofDecisions, Tally.ofDecisions]
    · refine (lines_tell _ _ _ _).trans ?_
      simp [ofDecisions, counter]
  | negative =>
    refine Progress.ext ?_ ?_
    · cases accepted <;> simp [judge, tell, ofDecisions, Tally.ofDecisions]
    · refine (lines_tell _ _ _ _).trans ?_
      simp [ofDecisions, counter]

/-- Decisions about samples with one label have this label. -/
theorem label_of_mem_ofSamples {index : Nat} {samples : List Sample} {decision : Decision}
    (decided : decision ∈ (Trial.ofSamples classifier label index samples).decisions) :
    decision.label = label := by
  -- Every decision of the trial was made for the label it was given.
  induction samples generalizing index with
  | nil => cases decided
  | cons sample rest ih =>
    rw [Trial.ofSamples] at decided
    split at decided
    · cases decided
    · rcases List.mem_cons.1 decided with rfl | later
      · rfl
      · exact ih later

/-- Samples with one label are judged as in a trial that starts at the counter of the label. -/
theorem judgeAll_map (classifier : Classifier) (label : Label) (decisions : List Decision)
    (samples : List Sample) :
    judgeAll classifier (ofDecisions decisions) (samples.map (label, ·)) =
      let trial := Trial.ofSamples classifier label ((ofDecisions decisions).counter label) samples
      (ofDecisions (decisions ++ trial.decisions), trial.fault) := by
  -- The index of each decision is the counter that has reached it.
  induction samples generalizing decisions with
  | nil => simp [judgeAll, Trial.ofSamples]
  | cons sample rest ih =>
    rw [List.map_cons, judgeAll, Trial.ofSamples]
    cases classifier sample with
    | error fault => simp
    | ok accepted =>
      let decision : Decision := ⟨label, (ofDecisions decisions).counter label, accepted⟩
      have moved : (ofDecisions (decisions ++ [decision])).counter label =
          (ofDecisions decisions).counter label + 1 := by
        simp [counter_ofDecisions, decision]
      simp only [judge_ofDecisions]
      rw [ih, moved]
      simp

/-- The loop goes on with the samples behind others where these lead to no fault. -/
theorem judgeAll_append (progress : Progress) (samples others : List (Label × Sample)) :
    judgeAll classifier progress (samples ++ others) =
      match judgeAll classifier progress samples with
      | (later, none) => judgeAll classifier later others
      | (later, some fault) => (later, some fault) := by
  -- A fault in the first part ends the whole, so the second part is not looked at.
  induction samples generalizing progress with
  | nil => rfl
  | cons first rest ih =>
    obtain ⟨label, sample⟩ := first
    rw [List.cons_append, judgeAll, judgeAll]
    cases classifier sample with
    | error fault => rfl
    | ok accepted => exact ih (progress.judge label accepted)

/-- The loop over all samples ends with the numbers, the lines and the fault of the trial. -/
theorem judgeAll_labeled (classifier : Classifier) (samples : SampleSet) :
    judgeAll classifier start samples.labeled =
      (ofDecisions (Trial.run classifier samples).decisions, (Trial.run classifier samples).fault) := by
  have first : judgeAll classifier start (samples.positives.map (.positive, ·)) =
      (ofDecisions (Trial.ofSamples classifier .positive 0 samples.positives).decisions,
        (Trial.ofSamples classifier .positive 0 samples.positives).fault) :=
    judgeAll_map classifier .positive [] samples.positives
  have fresh : (ofDecisions (Trial.ofSamples classifier .positive 0 samples.positives).decisions).counter
      .negative = 0 := by
    rw [counter_ofDecisions, List.countP_eq_zero]
    intro decision decided
    simp [label_of_mem_ofSamples decided]
  rw [SampleSet.labeled, judgeAll_append, first, Trial.run]
  generalize Trial.ofSamples classifier .positive 0 samples.positives = positive at fresh ⊢
  obtain ⟨decisions, fault⟩ := positive
  cases fault with
  | some fault => rfl
  | none =>
    -- No negative sample was counted so far.
    have last := judgeAll_map classifier .negative decisions samples.negatives
    rw [fresh] at last
    exact last

end Progress

end NfaInduction
