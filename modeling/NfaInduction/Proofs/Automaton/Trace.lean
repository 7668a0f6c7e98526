import NfaInduction.Proofs.Automaton.Language
import NfaInduction.Proofs.Automaton.Reports

/-! An automaton is covered by some words if all it consists of lies on accepting runs that spell them. -/

namespace NfaInduction

namespace Automaton

/-- Transitions that lead from one state to another, each from where the one before it ended. -/
inductive Leads : Nat → List Transition → Nat → Prop where
  /-- Without a transition the state stays the same. -/
  | stay (state : Nat) : Leads state [] state
  /-- The first transition leaves the state where all of them start. -/
  | step (first : Transition) {rest : List Transition} {last : Nat}
      (later : Leads first.target rest last) : Leads first.source (first :: rest) last

/-- Transitions still follow each other if states are renamed. -/
theorem Leads.rename {start last : Nat} {steps : List Transition} (leads : Leads start steps last)
    (change : Nat → Nat) : Leads (change start) (steps.map (·.rename change)) (change last) := by
  -- The state between two transitions gets one name in both.
  induction leads with
  | stay state => exact .stay (change state)
  | step first _ ih => exact .step (first.rename change) ih

/-- States on the way of some transitions from a first state. -/
def visited (start : Nat) (steps : List Transition) : List Nat := start :: steps.map (·.target)

/-- The way goes through the renamed states if states are renamed. -/
theorem visited_rename (start : Nat) (steps : List Transition) (change : Nat → Nat) :
    visited (change start) (steps.map (·.rename change)) = (visited start steps).map change := by
  -- Each target is renamed on its own.
  simp [visited, Transition.rename]

end Automaton

namespace PlainAutomaton

open Automaton (Transition Leads visited)

/-- A run from an initial to a final state whose transitions spell a word. -/
structure AcceptingRun (plain : PlainAutomaton) (word : List Symbol) (start : Nat)
    (steps : List Transition) : Prop where
  /-- The run starts in an initial state. -/
  initial : start ∈ plain.initial
  /-- The run ends in a final state. -/
  ending : ∃ last ∈ plain.finals, Leads start steps last
  /-- The run takes transitions of the automaton. -/
  joined : ∀ step ∈ steps, step ∈ plain.transitions
  /-- Their symbols are those of the word. -/
  spells : steps.map (·.symbol) = word.map (·.toNat)

/-- Every state and every transition lies on an accepting run that spells one of some words. -/
structure Covered (plain : PlainAutomaton) (words : List (List Symbol)) : Prop where
  /-- Each state is visited. -/
  states : ∀ state ∈ plain.active, ∃ word ∈ words, ∃ start steps,
    plain.AcceptingRun word start steps ∧ state ∈ visited start steps
  /-- Each transition is taken. -/
  transitions : ∀ step ∈ plain.transitions, ∃ word ∈ words, ∃ start steps,
    plain.AcceptingRun word start steps ∧ step ∈ steps

variable {plain part whole : PlainAutomaton} {word : List Symbol} {words : List (List Symbol)}
  {start : Nat} {steps : List Transition}

/-- An accepting run stays one if states, flags and transitions are added. -/
theorem AcceptingRun.mono (run : part.AcceptingRun word start steps)
    (contained : part.PartOf whole) : whole.AcceptingRun word start steps := by
  -- Its ends keep their flags, and its transitions stay.
  obtain ⟨last, final, leads⟩ := run.ending
  exact {
    initial := contained.initial run.initial
    ending := ⟨last, contained.finals final, leads⟩
    joined := fun step taken => contained.transitions (run.joined step taken)
    spells := run.spells }

/-- An accepting run keeps its word if states are renamed. -/
theorem AcceptingRun.rename (run : plain.AcceptingRun word start steps) (change : Nat → Nat) :
    (plain.rename change).AcceptingRun word (change start) (steps.map (·.rename change)) := by
  obtain ⟨last, final, leads⟩ := run.ending
  constructor
  case initial => exact Finset.mem_image_of_mem change run.initial
  case ending => exact ⟨change last, Finset.mem_image_of_mem change final, leads.rename change⟩
  case joined =>
    intro step taken
    obtain ⟨old, member, rfl⟩ := List.mem_map.1 taken
    exact Finset.mem_image_of_mem (·.rename change) (run.joined old member)
  case spells =>
    -- Only states are renamed, and symbols stay.
    rw [← run.spells, List.map_map]
    rfl

/-- Without states there is nothing to cover. -/
theorem covered_empty (alphabetSize : Nat) : (empty alphabetSize).Covered words where
  states state member := absurd member (Finset.notMem_empty state)
  transitions step member := absurd member (Finset.notMem_empty step)

/-- Words that cover an automaton still do so together with others. -/
theorem Covered.subset (covered : plain.Covered words) {more : List (List Symbol)}
    (contained : words ⊆ more) : plain.Covered more where
  -- The same accepting runs serve, now for words of the longer list.
  states state member := by
    obtain ⟨word, listed, run⟩ := covered.states state member
    exact ⟨word, contained listed, run⟩
  transitions step member := by
    obtain ⟨word, listed, run⟩ := covered.transitions step member
    exact ⟨word, contained listed, run⟩

/-- Words that cover an automaton still do so if its states are renamed, and so after a merge. -/
theorem Covered.rename (covered : plain.Covered words) (change : Nat → Nat) :
    (plain.rename change).Covered words where
  states state member := by
    -- Any state left is the new name of an old one, whose run is renamed with it.
    obtain ⟨old, active, rfl⟩ := Finset.mem_image.1 member
    obtain ⟨word, listed, start, steps, run, visits⟩ := covered.states old active
    refine ⟨word, listed, change start, _, run.rename change, ?_⟩
    rw [Automaton.visited_rename]
    exact List.mem_map_of_mem visits
  transitions step member := by
    obtain ⟨old, joined, rfl⟩ := Finset.mem_image.1 member
    obtain ⟨word, listed, start, steps, run, taken⟩ := covered.transitions old joined
    exact ⟨word, listed, change start, _, run.rename change, List.mem_map_of_mem taken⟩

/-- What is covered stays covered while everything added to it lies on one more accepting run. -/
theorem Covered.extend (covered : part.Covered words) (contained : part.PartOf whole)
    (run : whole.AcceptingRun word start steps)
    (states : ∀ state ∈ whole.active, state ∈ part.active ∨ state ∈ visited start steps)
    (transitions : ∀ step ∈ whole.transitions, step ∈ part.transitions ∨ step ∈ steps) :
    whole.Covered (words ++ [word]) := by
  -- Earlier runs are still there, and the new one takes care of what was added.
  have last : word ∈ words ++ [word] := List.mem_append_right _ List.mem_cons_self
  constructor
  case states =>
    intro state member
    rcases states state member with old | new
    · obtain ⟨known, listed, first, taken, before, visits⟩ := covered.states state old
      exact ⟨known, List.mem_append_left _ listed, first, taken, before.mono contained, visits⟩
    · exact ⟨word, last, start, steps, run, new⟩
  case transitions =>
    intro step member
    rcases transitions step member with old | new
    · obtain ⟨known, listed, first, taken, before, takes⟩ := covered.transitions step old
      exact ⟨known, List.mem_append_left _ listed, first, taken, before.mono contained, takes⟩
    · exact ⟨word, last, start, steps, run, new⟩

end PlainAutomaton

namespace Automaton

/-- A run from an initial to a final state whose listed transitions spell a word. -/
structure AcceptingRun (automaton : Automaton) (word : List Symbol) (start : Nat)
    (steps : List Transition) : Prop where
  /-- The run starts in an initial state. -/
  initial : automaton.isInitial start
  /-- The run ends in a final state. -/
  ending : ∃ last, automaton.isFinal last ∧ Leads start steps last
  /-- The run takes transitions of the automaton. -/
  joined : ∀ step ∈ steps, step ∈ automaton.transitions
  /-- Their symbols are those of the word. -/
  spells : steps.map (·.symbol) = word.map (·.toNat)

/-- Every state and every transition lies on an accepting run that spells one of some words. -/
structure Covered (automaton : Automaton) (words : List (List Symbol)) : Prop where
  /-- Each state is visited. -/
  states : ∀ state, automaton.isActive state → ∃ word ∈ words, ∃ start steps,
    automaton.AcceptingRun word start steps ∧ state ∈ visited start steps
  /-- Each transition is taken. -/
  transitions : ∀ step ∈ automaton.transitions, ∃ word ∈ words, ∃ start steps,
    automaton.AcceptingRun word start steps ∧ step ∈ steps

variable {automaton : Automaton} {plain : PlainAutomaton} {word : List Symbol}

/-- Words that cover an automaton still do so together with others. -/
theorem Covered.subset {words more : List (List Symbol)} (covered : automaton.Covered words)
    (contained : words ⊆ more) : automaton.Covered more where
  -- The same accepting runs serve, now for words of the longer list.
  states state active := by
    obtain ⟨word, listed, run⟩ := covered.states state active
    exact ⟨word, contained listed, run⟩
  transitions step joined := by
    obtain ⟨word, listed, run⟩ := covered.transitions step joined
    exact ⟨word, contained listed, run⟩

/-- A run of the plain automaton is one of the automaton that represents it. -/
theorem Represents.acceptingRun (represents : automaton.Represents plain) {start : Nat}
    {steps : List Transition} (run : plain.AcceptingRun word start steps) :
    automaton.AcceptingRun word start steps := by
  -- Both flags and every step taken are shown by the arrays.
  obtain ⟨last, final, leads⟩ := run.ending
  exact {
    initial := (represents.initial start).2 run.initial
    ending := ⟨last, (represents.finals last).2 final, leads⟩
    joined := fun step taken => (represents.mem_transitions step).2 (run.joined step taken)
    spells := run.spells }

/-- An automaton is covered if the plain one that it represents is. -/
theorem Represents.covered (represents : automaton.Represents plain) {words : List (List Symbol)}
    (covered : plain.Covered words) : automaton.Covered words where
  -- Each witnessing run of the plain automaton is one of the automaton itself.
  states state active := by
    obtain ⟨word, listed, start, steps, run, visits⟩ :=
      covered.states state ((represents.active state).1 active)
    exact ⟨word, listed, start, steps, represents.acceptingRun run, visits⟩
  transitions step listed := by
    obtain ⟨word, known, start, steps, run, taken⟩ :=
      covered.transitions step ((represents.mem_transitions step).1 listed)
    exact ⟨word, known, start, steps, represents.acceptingRun run, taken⟩

end Automaton

end NfaInduction
