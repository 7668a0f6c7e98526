import Mathlib.Algebra.Ring.Nat
import NfaInduction.Proofs.Automaton.Trace

/-! A path through fresh states spells one word, and adds this word and no other to the language. -/

namespace NfaInduction

namespace PlainAutomaton

variable {plain : PlainAutomaton}

/-- A state to which exactly one word leads. -/
structure Tip (plain : PlainAutomaton) (last : Nat) (word : List Symbol) : Prop where
  /-- The state is there. -/
  active : last ∈ plain.active
  /-- Runs from initial states to the state read this word and no other. -/
  reached : ∀ other, (∃ start ∈ plain.initial, plain.Run start other last) ↔ other = word

/-- What an automaton has gained by a word spelled on fresh states. -/
structure Gains (before after : PlainAutomaton) (word : List Symbol) (fresh : List Nat) : Prop where
  /-- The alphabet is the same. -/
  alphabet : after.alphabetSize = before.alphabetSize
  /-- Nothing is lost. -/
  partOf : before.PartOf after
  /-- The word is accepted besides the words accepted before. -/
  accepts : ∀ other, after.Accepts other ↔ before.Accepts other ∨ other = word
  /-- The fresh states are added. -/
  active : ∀ state, state ∈ after.active ↔ state ∈ before.active ∨ state ∈ fresh
  /-- No fresh state is used twice. -/
  nodup : fresh.Nodup
  /-- Fresh states were not there. -/
  unused : ∀ state ∈ fresh, state ∉ before.active

/-- What was added behind a state: transitions that spell a word on their way to a final state. -/
structure Continues (before after : PlainAutomaton) (first : Nat) (word : List Symbol)
    (steps : List Automaton.Transition) : Prop where
  /-- The transitions lead to a final state. -/
  ending : ∃ last ∈ after.finals, Automaton.Leads first steps last
  /-- Their symbols are those of the word. -/
  spells : steps.map (·.symbol) = word.map (·.toNat)
  /-- They are added, and no others. -/
  transitions : ∀ step, step ∈ after.transitions ↔ step ∈ before.transitions ∨ step ∈ steps

/-- What an automaton has gained by a word is one accepting run on fresh states. -/
structure Spells (before after : PlainAutomaton) (word : List Symbol) (fresh : List Nat) : Prop
    extends Gains before after word fresh where
  /-- The fresh states are those of the run, and all new transitions are taken by it. -/
  traced : ∃ start steps, after.AcceptingRun word start steps ∧
    fresh = Automaton.visited start steps ∧
    ∀ step ∈ after.transitions, step ∈ before.transitions ∨ step ∈ steps

section Start

variable {first : Nat} (fresh : first ∉ plain.active)
include fresh

/-- A fresh initial state is the tip of the empty word. -/
theorem tip_setInitial : (plain.setInitial first).Tip first [] where
  -- Nothing leads to the fresh state or away from it yet.
  active := Finset.mem_insert_self _ _
  reached other := by
    constructor
    · rintro ⟨start, initial, run⟩
      have before := run_setInitial.1 run
      rcases Finset.mem_insert.1 initial with rfl | old
      · exact (before.eq_of_not_source fresh).2
      · exact absurd (before.target_active (plain.initial_subset old)) fresh
    · rintro rfl
      exact ⟨first, Finset.mem_insert_self _ _, .stay first⟩

/-- A fresh initial state that is not final adds no word. -/
theorem accepts_setInitial (word : List Symbol) :
    (plain.setInitial first).Accepts word ↔ plain.Accepts word := by
  constructor
  · rintro ⟨start, initial, last, final, run⟩
    -- No transition leaves the fresh state, so that its only run is over at once.
    have before := run_setInitial.1 run
    rcases Finset.mem_insert.1 initial with rfl | old
    · obtain ⟨rfl, _⟩ := before.eq_of_not_source fresh
      exact absurd (plain.finals_subset final) fresh
    · exact ⟨start, old, last, final, before⟩
  · exact fun accepts => accepts.mono (plain.partOf_setInitial first)

end Start

section Step

variable {last next : Nat} {symbol : Symbol} (inAlphabet : symbol.toNat < plain.alphabetSize)
  (fresh : next ∉ plain.active)
include fresh

/-- A run that takes the transition to a fresh state ends there. -/
theorem run_setTransition (active : last ∈ plain.active) {source target : Nat} {word : List Symbol}
    (run : (plain.setTransition last next symbol.toNat inAlphabet).Run source word target) :
    plain.Run source word target ∨
      target = next ∧ ∃ earlier, word = earlier ++ [symbol] ∧ plain.Run source earlier last := by
  -- The induction follows the run from its start, and no old transition leaves the fresh state.
  induction run with
  | stay state => exact .inl (.stay state)
  | step first later hypothesis =>
    rcases Finset.mem_insert.1 first with new | old
    · obtain ⟨rfl, rfl, same⟩ := Automaton.Transition.mk.injEq .. ▸ new
      obtain rfl := UInt32.toNat_inj.1 same
      rcases hypothesis with run | ⟨_, earlier, _, run⟩
      · obtain ⟨rfl, rfl⟩ := run.eq_of_not_source fresh
        exact .inr ⟨rfl, [], rfl, .stay _⟩
      · obtain ⟨rfl, _⟩ := run.eq_of_not_source fresh
        exact absurd active fresh
    · rcases hypothesis with run | ⟨rfl, earlier, rfl, run⟩
      · exact .inl (.step old run)
      · exact .inr ⟨rfl, _, (List.cons_append ..).symm, .step old run⟩

/-- A transition from a tip to a fresh state makes that state a tip, for a word longer by a symbol. -/
theorem Tip.setTransition {word : List Symbol} (tip : plain.Tip last word) :
    (plain.setTransition last next symbol.toNat inAlphabet).Tip next (word ++ [symbol]) where
  active := Finset.mem_insert_self _ _
  reached other := by
    constructor
    · rintro ⟨start, initial, run⟩
      rcases run_setTransition inAlphabet fresh tip.active run with old | ⟨_, earlier, rfl, old⟩
      · -- No run led to the fresh state before.
        exact absurd (old.target_active (plain.initial_subset initial)) fresh
      · rw [(tip.reached earlier).1 ⟨start, initial, old⟩]
    · rintro rfl
      obtain ⟨start, initial, run⟩ := (tip.reached word).2 rfl
      have contained := plain.partOf_setTransition last next symbol.toNat inAlphabet
      exact ⟨start, initial, (run.mono contained.transitions).snoc (Finset.mem_insert_self _ _)⟩

/-- A transition to a fresh state adds no word. -/
theorem accepts_setTransition (active : last ∈ plain.active) (word : List Symbol) :
    (plain.setTransition last next symbol.toNat inAlphabet).Accepts word ↔ plain.Accepts word := by
  constructor
  · rintro ⟨start, initial, final, flagged, run⟩
    -- A run that takes the transition ends in the fresh state, which is not final.
    rcases run_setTransition inAlphabet fresh active run with old | ⟨rfl, _⟩
    · exact ⟨start, initial, final, flagged, old⟩
    · exact absurd (plain.finals_subset flagged) fresh
  · exact fun accepts =>
      accepts.mono (plain.partOf_setTransition last next symbol.toNat inAlphabet)

end Step

/-- A tip that becomes final adds its word. -/
theorem Tip.accepts_setFinal {last : Nat} {word : List Symbol} (tip : plain.Tip last word)
    (other : List Symbol) :
    (plain.setFinal last).Accepts other ↔ plain.Accepts other ∨ other = word := by
  constructor
  · rintro ⟨start, initial, final, flagged, run⟩
    -- Runs are what they were, and those that end in the tip accept its word now.
    have before := run_setFinal.1 run
    rcases Finset.mem_insert.1 flagged with rfl | old
    · exact .inr ((tip.reached other).1 ⟨start, initial, before⟩)
    · exact .inl ⟨start, initial, final, old, before⟩
  · rintro (accepts | rfl)
    · exact accepts.mono (plain.partOf_setFinal last)
    · obtain ⟨start, initial, run⟩ := (tip.reached other).2 rfl
      exact ⟨start, initial, last, Finset.mem_insert_self _ _, run_setFinal.2 run⟩

/-- Nothing is fresh about a tip that becomes final. -/
theorem Tip.gains_setFinal {last : Nat} {word : List Symbol} (tip : plain.Tip last word) :
    plain.Gains (plain.setFinal last) word [] where
  -- The end of the path becomes final, and no state is added.
  alphabet := rfl
  partOf := plain.partOf_setFinal last
  accepts := tip.accepts_setFinal
  active state := by simp [Finset.insert_eq_of_mem tip.active]
  nodup := .nil
  unused := by simp

/-- What is gained behind a step to a fresh state is gained together with this state. -/
theorem Tip.gains_setTransition {after : PlainAutomaton} {last next : Nat} {symbol : Symbol}
    {word gained : List Symbol} {fresh : List Nat} (tip : plain.Tip last word)
    (inAlphabet : symbol.toNat < plain.alphabetSize) (unused : next ∉ plain.active)
    (later : (plain.setTransition last next symbol.toNat inAlphabet).Gains after gained fresh) :
    plain.Gains after gained (next :: fresh) where
  alphabet := later.alphabet
  partOf := (plain.partOf_setTransition ..).trans later.partOf
  accepts other := by
    rw [later.accepts, accepts_setTransition inAlphabet unused tip.active]
  active state := by
    have present := tip.active
    rw [later.active, setTransition_active, addState_active, addState_active, Finset.mem_insert,
      Finset.mem_insert, List.mem_cons]
    grind
  nodup := by
    -- The fresh state is there before anything is gained behind it.
    refine List.nodup_cons.2 ⟨fun member => later.unused next member ?_, later.nodup⟩
    exact Finset.mem_insert_self _ _
  unused state member := by
    rcases List.mem_cons.1 member with rfl | member
    · exact unused
    · exact fun old => later.unused state member ((plain.partOf_setTransition ..).active old)

/-- What is gained behind a fresh initial state is gained together with this state. -/
theorem gains_setInitial {after : PlainAutomaton} {first : Nat} {gained : List Symbol}
    {fresh : List Nat} (unused : first ∉ plain.active)
    (later : (plain.setInitial first).Gains after gained fresh) :
    plain.Gains after gained (first :: fresh) where
  -- The fresh initial state is the first one of the path.
  alphabet := later.alphabet
  partOf := (plain.partOf_setInitial first).trans later.partOf
  accepts other := by
    rw [later.accepts, accepts_setInitial unused]
  active state := by
    rw [later.active, setInitial_active, addState_active, Finset.mem_insert, List.mem_cons]
    tauto
  nodup := List.nodup_cons.2
    ⟨fun member => later.unused first member (Finset.mem_insert_self _ _), later.nodup⟩
  unused state member := by
    rcases List.mem_cons.1 member with rfl | member
    · exact unused
    · exact fun old => later.unused state member (Finset.mem_insert_of_mem old)

/-- Behind a state that becomes final nothing needs to be added. -/
theorem continues_setFinal (plain : PlainAutomaton) (last : Nat) :
    plain.Continues (plain.setFinal last) last [] [] where
  -- A path without steps ends where it starts.
  ending := ⟨last, Finset.mem_insert_self _ _, .stay last⟩
  spells := rfl
  transitions step := by simp

/-- What was added behind a step to another state was added behind the first state with this step. -/
theorem Continues.cons {after : PlainAutomaton} {last next : Nat} {symbol : Symbol}
    {word : List Symbol} {steps : List Automaton.Transition}
    (inAlphabet : symbol.toNat < plain.alphabetSize)
    (later : (plain.setTransition last next symbol.toNat inAlphabet).Continues after next word steps) :
    plain.Continues after last (symbol :: word) (⟨last, next, symbol.toNat⟩ :: steps) where
  ending := by
    obtain ⟨final, flagged, leads⟩ := later.ending
    exact ⟨final, flagged, .step ⟨last, next, symbol.toNat⟩ leads⟩
  spells := by
    -- The first symbol is that of the step, and the others come later.
    rw [List.map_cons, List.map_cons, later.spells]
  transitions step := by
    rw [later.transitions, setTransition_transitions, Finset.mem_insert, List.mem_cons]
    tauto

/-- What is gained and added behind a fresh initial state is an accepting run from this state. -/
theorem spells_setInitial {after : PlainAutomaton} {first : Nat} {word : List Symbol}
    {steps : List Automaton.Transition} (unused : first ∉ plain.active)
    (gains : (plain.setInitial first).Gains after word (steps.map (·.target)))
    (continues : (plain.setInitial first).Continues after first word steps) :
    plain.Spells after word (Automaton.visited first steps) where
  -- The path from the fresh initial state spells the word.
  toGains := gains_setInitial unused gains
  traced := by
    have run : after.AcceptingRun word first steps := {
      initial := gains.partOf.initial (Finset.mem_insert_self _ _)
      ending := continues.ending
      joined := fun step taken => (continues.transitions step).2 (.inr taken)
      spells := continues.spells }
    exact ⟨first, steps, run, rfl, fun step member => (continues.transitions step).1 member⟩

/-- A word is spelled on one state more than it has symbols. -/
theorem Spells.length_eq {after : PlainAutomaton} {word : List Symbol} {fresh : List Nat}
    (spells : plain.Spells after word fresh) : fresh.length = word.length + 1 := by
  -- The run visits the state where it starts and the target of each transition.
  obtain ⟨start, steps, run, rfl, _⟩ := spells.traced
  have lengths := congrArg List.length run.spells
  simpa [Automaton.visited] using lengths

/-- A word that is spelled covers what is added for it. -/
theorem Spells.covered {after : PlainAutomaton} {word : List Symbol} {fresh : List Nat}
    (spells : plain.Spells after word fresh) {words : List (List Symbol)}
    (covered : plain.Covered words) : after.Covered (words ++ [word]) := by
  -- What was covered before stays covered, and the path covers itself.
  obtain ⟨start, steps, run, rfl, transitions⟩ := spells.traced
  exact covered.extend spells.partOf run (fun state member => (spells.active state).1 member)
    transitions

/-- States that separate paths for some words have together. -/
def pathStates (words : List (List Symbol)) : Nat := (words.map fun word => word.length + 1).sum

/-- Paths for more words have the states of both parts. -/
@[simp] theorem pathStates_append (words more : List (List Symbol)) :
    pathStates (words ++ more) = pathStates words + pathStates more := by
  simp [pathStates]

/-- A path has one state more than its word has symbols. -/
@[simp] theorem pathStates_singleton (word : List Symbol) : pathStates [word] = word.length + 1 := by
  simp [pathStates]

/-- Paths for some of the words have no more states. -/
theorem pathStates_take_le (words : List (List Symbol)) (count : Nat) :
    pathStates (words.take count) ≤ pathStates words := by
  -- The other words account for what is missing.
  conv_rhs => rw [← List.take_append_drop count words, pathStates_append]
  omega

/-- There are no more words than states on their paths. -/
theorem length_le_pathStates (words : List (List Symbol)) : words.length ≤ pathStates words := by
  -- Each path has one state at least.
  induction words with
  | nil => exact Nat.le_refl 0
  | cons word rest ih =>
    simp only [pathStates, List.map_cons, List.sum_cons, List.length_cons] at ih ⊢
    omega

/-- It does not matter for the number of states how the words are listed. -/
theorem pathStates_perm {words reordered : List (List Symbol)} (same : reordered.Perm words) :
    pathStates reordered = pathStates words :=
  (same.map _).sum_nat

/-- What an automaton has become by paths for some words and by merges of their states. -/
structure GrownFrom (plain : PlainAutomaton) (words : List (List Symbol)) : Prop where
  /-- Whatever it consists of lies on an accepting run that spells one of the words. -/
  covered : plain.Covered words
  /-- It has no more states than the paths had. -/
  card_le : plain.active.card ≤ pathStates words

/-- Without states there is no need for a path. -/
theorem grownFrom_empty (alphabetSize : Nat) : (empty alphabetSize).GrownFrom [] where
  covered := covered_empty alphabetSize
  card_le := Nat.le_refl 0

variable {words : List (List Symbol)}

/-- What has grown from some words has grown from more of them. -/
theorem GrownFrom.append (grown : plain.GrownFrom words) (more : List (List Symbol)) :
    plain.GrownFrom (words ++ more) where
  covered := grown.covered.subset (List.subset_append_left words more)
  card_le := by
    rw [pathStates_append]
    exact grown.card_le.trans (Nat.le_add_right _ _)

/-- Merges leave no new states, and what is left goes back to the same words. -/
theorem GrownFrom.rename (grown : plain.GrownFrom words) (change : Nat → Nat) :
    (plain.rename change).GrownFrom words where
  covered := grown.covered.rename change
  card_le := Finset.card_image_le.trans grown.card_le

/-- One more path for a word is what an automaton grows by if it spells the word. -/
theorem Spells.grownFrom {after : PlainAutomaton} {word : List Symbol} {fresh : List Nat}
    (spells : plain.Spells after word fresh) (grown : plain.GrownFrom words) :
    after.GrownFrom (words ++ [word]) where
  covered := spells.covered grown.covered
  card_le := by
    -- The states of the path come on top of those that were there.
    have states : after.active = plain.active ∪ fresh.toFinset := by
      ext state
      rw [spells.active, Finset.mem_union, List.mem_toFinset]
    have added : fresh.toFinset.card ≤ word.length + 1 :=
      (List.toFinset_card_le fresh).trans_eq spells.length_eq
    have both := Finset.card_union_le plain.active fresh.toFinset
    have before := grown.card_le
    rw [states, pathStates_append, pathStates_singleton]
    omega

end PlainAutomaton

end NfaInduction
