import Mathlib.Logic.Relation
import NfaInduction.Proofs.Except
import NfaInduction.Training.Session

/-! A settlement goes on in turns, each of which examines the first of the states that wait. -/

namespace NfaInduction

namespace Training

/-- How far a settlement has come between two examinations. -/
structure SettleState where
  /-- The automaton as far as its new states are examined. -/
  hypothesis : Automaton
  /-- States that stay, in the order of search. -/
  states : Array Nat
  /-- States that wait. -/
  pending : List Nat

namespace SettleState

/-- What is left to settle once a state is absorbed by the partner that was chosen, or stays without. -/
def resolve (settings : Settings) (settling : SettleState) (state : Nat) (waiting : List Nat) :
    Option Choice → SettleState
  | none => ⟨settling.hypothesis, settling.states.push state, waiting⟩
  | some choice =>
    ⟨choice.merged, settling.states, waitingAfterMerge settings.deterministic waiting⟩

/-- Examines the first of the states that wait, or does nothing once none is left. -/
def turn (settings : Settings) (negatives remaining : List Sample) (settling : SettleState) :
    Except Fault (Option (Examination × SettleState)) :=
  match settling.pending with
  | [] => .ok none
  | state :: waiting => do
    let found ← search settings.skipBestSearch negatives remaining settling.hypothesis state
      settling.states.toList
    return some (⟨settling.states.size, state, found.counted, found.choice.map (·.partner)⟩,
      settling.resolve settings state waiting found.choice)

/-- One state of a settlement is what a turn makes of another. -/
def Turns (settings : Settings) (negatives remaining : List Sample) (before after : SettleState) : Prop :=
  ∃ examination, before.turn settings negatives remaining = .ok (some (examination, after))

/-- One state of a settlement is what some turns in a row make of another. -/
def Reaches (settings : Settings) (negatives remaining : List Sample) :
    SettleState → SettleState → Prop :=
  Relation.ReflTransGen (Turns settings negatives remaining)

/-- Settling takes turns until no state waits. -/
theorem settle_eq (settings : Settings) (negatives remaining : List Sample) (settling : SettleState) :
    settle settings negatives remaining settling.hypothesis settling.states settling.pending = (do
      match ← settling.turn settings negatives remaining with
      | none => return ⟨settling.hypothesis, settling.states, []⟩
      | some (examination, next) =>
        let settlement ← settle settings negatives remaining next.hypothesis next.states
          next.pending
        return { settlement with examinations := examination :: settlement.examinations }) := by
  obtain ⟨hypothesis, states, pending⟩ := settling
  cases pending with
  | nil =>
    rw [settle]
    rfl
  | cons state waiting =>
    rw [settle, turn]
    -- Both fail together with the search, and else go on from where it led.
    simp only [Bind.bind, Except.bind]
    cases search settings.skipBestSearch negatives remaining hypothesis state states.toList with
    | error fault => rfl
    | ok found =>
      obtain ⟨counted, choice⟩ := found
      cases choice with
      | none => rfl
      | some choice => rfl

/-- A turn takes one of the states that wait. -/
theorem length_pending_resolve (settings : Settings) (settling : SettleState) (state : Nat)
    (waiting : List Nat) (choice : Option Choice) :
    (settling.resolve settings state waiting choice).pending.length = waiting.length := by
  -- A merge may change the order of the others, and not their number.
  cases choice with
  | none => rfl
  | some choice => exact length_waitingAfterMerge settings.deterministic waiting

/-- A turn examines the first of the states that wait, and its search resolves what becomes of it. -/
theorem exists_of_turn {settings : Settings} {negatives remaining : List Sample}
    {settling next : SettleState} {examination : Examination}
    (done : settling.turn settings negatives remaining = .ok (some (examination, next))) :
    ∃ state waiting found, settling.pending = state :: waiting ∧
      search settings.skipBestSearch negatives remaining settling.hypothesis state
        settling.states.toList = .ok found ∧
      examination = ⟨settling.states.size, state, found.counted, found.choice.map (·.partner)⟩ ∧
      next = settling.resolve settings state waiting found.choice := by
  -- A turn with a result had a state waiting and a search that ended.
  cases pending : settling.pending with
  | nil =>
    simp only [turn, pending] at done
    cases done
  | cons state waiting =>
    simp only [turn, pending] at done
    obtain ⟨found, searched, done⟩ := bind_eq_ok.1 done
    cases done
    exact ⟨state, waiting, found, rfl, searched, rfl, rfl⟩

/-- After a turn one state waits less. -/
theorem length_pending_of_turn {settings : Settings} {negatives remaining : List Sample}
    {settling next : SettleState} {examination : Examination}
    (done : settling.turn settings negatives remaining = .ok (some (examination, next))) :
    next.pending.length + 1 = settling.pending.length := by
  obtain ⟨state, waiting, found, pending, _, _, rfl⟩ := exists_of_turn done
  rw [length_pending_resolve, pending, List.length_cons]

/-- What every turn hands back from what is left after it holds of a settlement and its result. -/
theorem settle_induction {settings : Settings} {negatives remaining : List Sample}
    {motive : SettleState → Settlement → Prop}
    (done : ∀ hypothesis states, motive ⟨hypothesis, states, []⟩ ⟨hypothesis, states, []⟩)
    (turn : ∀ (settling : SettleState) examination next settlement,
      settling.turn settings negatives remaining = .ok (some (examination, next)) →
      motive next settlement →
      motive settling { settlement with examinations := examination :: settlement.examinations })
    {settling : SettleState} {settlement : Settlement}
    (settled : settle settings negatives remaining settling.hypothesis settling.states settling.pending =
      .ok settlement) : motive settling settlement := by
  -- One state waits less after each turn.
  induction size : settling.pending.length generalizing settling settlement with
  | zero =>
    obtain ⟨hypothesis, states, pending⟩ := settling
    obtain rfl : pending = [] := List.eq_nil_of_length_eq_zero size
    rw [settle] at settled
    cases settled
    exact done hypothesis states
  | succ count ih =>
    rw [settle_eq] at settled
    obtain ⟨outcome, taken, settled⟩ := bind_eq_ok.1 settled
    cases outcome with
    | none =>
      -- A turn does nothing only where no state waits.
      obtain ⟨state, waiting, pending⟩ := List.exists_cons_of_length_eq_add_one size
      simp only [SettleState.turn, pending] at taken
      obtain ⟨_, _, impossible⟩ := bind_eq_ok.1 taken
      cases impossible
    | some result =>
      obtain ⟨examination, next⟩ := result
      obtain ⟨later, after, finished⟩ := bind_eq_ok.1 settled
      cases finished
      refine turn settling examination next later taken (ih after ?_)
      have fewer := length_pending_of_turn taken
      omega

/-- A settlement is repeated if each turn on the way can be, and its examinations look the same then. -/
theorem settle_lockstep {settings others : Settings} {negatives listed remaining : List Sample}
    {β : Type} {view : Examination → β} {settling : SettleState} {settlement : Settlement}
    (turns : ∀ later examination next, settling.Reaches settings negatives remaining later →
      later.turn settings negatives remaining = .ok (some (examination, next)) →
      ∃ again, later.turn others listed remaining = .ok (some (again, next)) ∧
        view again = view examination)
    (settled : settle settings negatives remaining settling.hypothesis settling.states settling.pending =
      .ok settlement) :
    ∃ examinations, settle others listed remaining settling.hypothesis settling.states settling.pending =
        .ok { settlement with examinations := examinations } ∧
      examinations.map view = settlement.examinations.map view := by
  -- Both are as far after each turn, and the first settlement reaches each of these states.
  refine settle_induction (motive := fun later settlement =>
    settling.Reaches settings negatives remaining later →
    ∃ examinations, settle others listed remaining later.hypothesis later.states later.pending =
        .ok { settlement with examinations := examinations } ∧
      examinations.map view = settlement.examinations.map view) ?_ ?_ settled .refl
  · intro hypothesis states _
    exact ⟨[], by rw [settle], rfl⟩
  · intro later examination next settlement taken goesOn reached
    obtain ⟨again, repeated, alike⟩ := turns later examination next reached taken
    obtain ⟨examinations, settled, views⟩ := goesOn (reached.tail ⟨examination, taken⟩)
    refine ⟨again :: examinations, ?_, ?_⟩
    · rw [settle_eq, bind_of_ok repeated]
      exact bind_of_ok settled
    · rw [List.map_cons, List.map_cons, alike, views]

end SettleState

/-- What a settlement starts with: the states of a path wait in the order of their examination. -/
def Session.settling {source : Type} [WordSource source] (session : Session source) (path : Path) :
    SettleState :=
  ⟨path.automaton, session.states, (session.arrange path.states).1⟩

end Training

end NfaInduction
