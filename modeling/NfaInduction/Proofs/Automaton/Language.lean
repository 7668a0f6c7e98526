import NfaInduction.Proofs.Automaton.Plain
import NfaInduction.Sample.Basic

/-! A word is accepted along a run, and renaming states or adding to an automaton loses no run. -/

namespace NfaInduction

namespace PlainAutomaton

/-- A run that reads a word on its way from one state to another. -/
inductive Run (plain : PlainAutomaton) : Nat → List Symbol → Nat → Prop where
  /-- Nothing is read where a run starts. -/
  | stay (state : Nat) : Run plain state [] state
  /-- The first symbol is read on the first step. -/
  | step {source middle target : Nat} {symbol : Symbol} {rest : List Symbol}
      (first : ⟨source, middle, symbol.toNat⟩ ∈ plain.transitions)
      (later : Run plain middle rest target) : Run plain source (symbol :: rest) target

/-- A word is accepted if a run reads it from an initial to a final state. -/
def Accepts (plain : PlainAutomaton) (word : List Symbol) : Prop :=
  ∃ start ∈ plain.initial, ∃ last ∈ plain.finals, plain.Run start word last

/-- Every state, flag and transition of one automaton is one of another. -/
structure PartOf (part whole : PlainAutomaton) : Prop where
  /-- States are states. -/
  active : part.active ⊆ whole.active
  /-- Initial states are initial. -/
  initial : part.initial ⊆ whole.initial
  /-- Final states are final. -/
  finals : part.finals ⊆ whole.finals
  /-- Transitions are transitions. -/
  transitions : part.transitions ⊆ whole.transitions

variable {plain part whole : PlainAutomaton}

/-- A run is a run in any automaton with its transitions. -/
theorem Run.mono (contained : part.transitions ⊆ whole.transitions) {source target : Nat}
    {word : List Symbol} (run : part.Run source word target) : whole.Run source word target := by
  -- The induction goes along the run, each step of which is there in the larger automaton.
  induction run with
  | stay state => exact .stay state
  | step first _ hypothesis => exact .step (contained first) hypothesis

/-- Flags play no part in runs. -/
theorem run_congr (same : part.transitions = whole.transitions) {source target : Nat}
    {word : List Symbol} : part.Run source word target ↔ whole.Run source word target :=
  ⟨Run.mono same.subset, Run.mono same.superset⟩

/-- An initial state more changes no run. -/
theorem run_setInitial {state source target : Nat} {word : List Symbol} :
    (plain.setInitial state).Run source word target ↔ plain.Run source word target :=
  run_congr ((plain.setInitial_transitions state).trans (plain.addState_transitions state))

/-- A final state more changes no run. -/
theorem run_setFinal {state source target : Nat} {word : List Symbol} :
    (plain.setFinal state).Run source word target ↔ plain.Run source word target :=
  run_congr ((plain.setFinal_transitions state).trans (plain.addState_transitions state))

/-- A run goes on by one more step. -/
theorem Run.snoc {source middle target : Nat} {word : List Symbol} {symbol : Symbol}
    (run : plain.Run source word middle)
    (last : ⟨middle, target, symbol.toNat⟩ ∈ plain.transitions) :
    plain.Run source (word ++ [symbol]) target := by
  -- The induction goes along the run, to whose end the step is added.
  induction run with
  | stay state => exact .step last (.stay target)
  | step first _ hypothesis => exact .step first (hypothesis last)

/-- A run keeps its word if states are renamed. -/
theorem Run.rename {source target : Nat} {word : List Symbol} (run : plain.Run source word target)
    (change : Nat → Nat) : (plain.rename change).Run (change source) word (change target) := by
  -- The induction goes along the run, each step of which is renamed.
  induction run with
  | stay state => exact .stay (change state)
  | step first _ hypothesis => exact .step (Finset.mem_image_of_mem (·.rename change) first) hypothesis

/-- Nothing is read on a run from a state that no transition leaves. -/
theorem Run.eq_of_not_source {source target : Nat} {word : List Symbol}
    (run : plain.Run source word target) (outside : source ∉ plain.active) :
    target = source ∧ word = [] := by
  -- A first step would start at an active state.
  cases run with
  | stay => exact ⟨rfl, rfl⟩
  | step first => exact absurd (plain.source_active _ first) outside

/-- A run stays among the states once it is there. -/
theorem Run.target_active {source target : Nat} {word : List Symbol}
    (run : plain.Run source word target) (within : source ∈ plain.active) :
    target ∈ plain.active := by
  -- The induction goes along the run, each step of which ends at an active state.
  induction run with
  | stay => exact within
  | step first _ hypothesis => exact hypothesis (plain.target_active _ first)

/-- A run reads symbols of the alphabet only. -/
theorem Run.within {source target : Nat} {word : List Symbol} (run : plain.Run source word target) :
    Sample.Within plain.alphabetSize word := by
  -- The induction goes along the run, each step of which has a symbol of the alphabet.
  induction run with
  | stay => exact fun symbol member => absurd member List.not_mem_nil
  | step first _ hypothesis => exact List.forall_mem_cons.2 ⟨plain.symbol_lt _ first, hypothesis⟩

/-- An accepted word is one over the alphabet. -/
theorem Accepts.within {word : List Symbol} (accepts : plain.Accepts word) :
    Sample.Within plain.alphabetSize word := by
  obtain ⟨_, _, _, _, run⟩ := accepts
  exact run.within

/-- A word stays accepted if states are renamed. -/
theorem Accepts.rename {word : List Symbol} (accepts : plain.Accepts word) (change : Nat → Nat) :
    (plain.rename change).Accepts word := by
  -- The renamed run starts and ends in renamed states.
  obtain ⟨start, initial, last, final, run⟩ := accepts
  exact ⟨change start, Finset.mem_image_of_mem change initial, change last,
    Finset.mem_image_of_mem change final, run.rename change⟩

/-- A word stays accepted if one state absorbs another. -/
theorem Accepts.merge {word : List Symbol} (accepts : plain.Accepts word) (kept absorbed : Nat) :
    (plain.merge kept absorbed).Accepts word :=
  accepts.rename (standIn kept absorbed)

/-- A word stays accepted if states, flags and transitions are added. -/
theorem Accepts.mono {word : List Symbol} (accepts : part.Accepts word) (contained : part.PartOf whole) :
    whole.Accepts word := by
  -- The run of the part is one of the whole.
  obtain ⟨start, initial, last, final, run⟩ := accepts
  exact ⟨start, contained.initial initial, last, contained.finals final,
    run.mono contained.transitions⟩

/-- A part of a part is a part. -/
theorem PartOf.trans {middle : PlainAutomaton} (left : part.PartOf middle)
    (right : middle.PartOf whole) : part.PartOf whole where
  active := left.active.trans right.active
  initial := left.initial.trans right.initial
  finals := left.finals.trans right.finals
  transitions := left.transitions.trans right.transitions

/-- A part stays one if the states of both are renamed. -/
theorem PartOf.rename (contained : part.PartOf whole) (change : Nat → Nat) :
    (part.rename change).PartOf (whole.rename change) where
  active := Finset.image_subset_image contained.active
  initial := Finset.image_subset_image contained.initial
  finals := Finset.image_subset_image contained.finals
  transitions := Finset.image_subset_image contained.transitions

/-- An automaton is part of the one with an initial state more. -/
theorem partOf_setInitial (plain : PlainAutomaton) (state : Nat) :
    plain.PartOf (plain.setInitial state) where
  active := Finset.subset_insert _ _
  initial := Finset.subset_insert _ _
  finals := fun _ => id
  transitions := fun _ => id

/-- An automaton is part of the one with a final state more. -/
theorem partOf_setFinal (plain : PlainAutomaton) (state : Nat) :
    plain.PartOf (plain.setFinal state) where
  active := Finset.subset_insert _ _
  initial := fun _ => id
  finals := Finset.subset_insert _ _
  transitions := fun _ => id

/-- An automaton is part of the one with a transition more. -/
theorem partOf_setTransition (plain : PlainAutomaton) (source target symbol : Nat)
    (inAlphabet : symbol < plain.alphabetSize) :
    plain.PartOf (plain.setTransition source target symbol inAlphabet) where
  active := (Finset.subset_insert _ _).trans (Finset.subset_insert _ _)
  initial := fun _ => id
  finals := fun _ => id
  transitions := Finset.subset_insert _ _

/-- Nothing changes if every state keeps its name. -/
theorem rename_id (plain : PlainAutomaton) : plain.rename id = plain := by
  ext1 <;> simp [rename, Automaton.Transition.rename]

/-- Renaming twice is renaming by both changes at once. -/
theorem rename_rename (plain : PlainAutomaton) (first second : Nat → Nat) :
    (plain.rename first).rename second = plain.rename (second ∘ first) := by
  -- Images of images are images.
  ext1 <;> first | rfl | exact Finset.image_image

/-- The two directions of a merge differ in the name of one state only. -/
theorem merge_rename_standIn (plain : PlainAutomaton) (kept absorbed : Nat) :
    (plain.merge kept absorbed).rename (standIn absorbed kept) = plain.merge absorbed kept := by
  -- Both ways every state that was merged is called by the one name that is left.
  rw [merge, merge, rename_rename]
  congr 1
  funext state
  by_cases same : state = absorbed
  · subst same
    rw [Function.comp_apply, standIn_self, standIn_self, standIn]
    split <;> rfl
  · rw [Function.comp_apply, standIn_of_ne same]

/-- A merge after another is also a merge of the merged automaton with its states renamed. -/
theorem merge_rename_merge (plain : PlainAutomaton) {left right absorbed : Nat} (kept : Nat)
    (leftOther : left ≠ absorbed) (rightOther : right ≠ absorbed) :
    (plain.merge left right).rename (standIn left right ∘ standIn kept absorbed) =
      (plain.merge kept absorbed).merge left right := by
  -- The two states that are merged later are not the one absorbed earlier.
  rw [merge, merge, merge, rename_rename, rename_rename]
  congr 1
  funext state
  rw [Function.comp_apply]
  by_cases same : state = right
  · subst same
    rw [standIn_self, Function.comp_apply, Function.comp_apply, standIn_of_ne leftOther,
      standIn_of_ne rightOther, standIn_self, standIn, ite_self]
  · rw [standIn_of_ne same]

end PlainAutomaton

end NfaInduction
