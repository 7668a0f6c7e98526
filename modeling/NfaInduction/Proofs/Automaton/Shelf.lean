import NfaInduction.Model.Reader
import NfaInduction.Proofs.Automaton.Call
import NfaInduction.Proofs.Automaton.Reports
import NfaInduction.Proofs.Rack

/-! Over any run of calls on many automata, each of them reports what its plain counterpart shows. -/

namespace NfaInduction

/-- The calls that build what a model describes. -/
def Model.calls (model : Model) : List Automaton.Call :=
  (List.range model.stateCount).map .addState ++ model.initial.map .setInitial ++
    model.finals.map .setFinal ++
    model.transitions.map fun step =>
      .setTransition step.source step.target (UInt32.ofNat step.symbol)

/-- The automaton of a model is what its calls leave of the automaton without states. -/
theorem Model.toAutomaton_eq (model : Model) : model.toAutomaton =
    model.calls.foldl (fun automaton call => (automaton.call call).automaton)
      (.blank model.alphabetSize) := by
  -- States, initial states, final states and transitions come one after the other.
  simp only [toAutomaton, afterAll, calls, List.foldl_append, List.foldl_map, Automaton.call]

/-- The plain automaton of a model is what its calls leave of the one without states. -/
def Model.toPlain (model : Model) : PlainAutomaton :=
  model.calls.foldl (fun plain call => (plain.call call).1) (.empty model.alphabetSize)

/-- A kind of automata, with the ways in which they come into being and change. -/
class Editable (kind : Type) where
  /-- A new automaton over an alphabet. -/
  make : Nat → Except Fault kind
  /-- The automaton that a model describes. -/
  ofModel : Model → kind
  /-- What a call leaves of an automaton, and the fault that ended it early. -/
  edit : kind → Automaton.Call → kind × Option Fault

/-- Automata are edited in place, as far as a call gets. -/
instance : Editable Automaton where
  make := Automaton.ofAlphabet
  ofModel := Model.toAutomaton
  edit automaton call := ((automaton.call call).automaton, (automaton.call call).fault)

/-- Plain automata are edited set by set. -/
instance : Editable PlainAutomaton where
  make alphabetSize := .ok (.empty alphabetSize)
  ofModel := Model.toPlain
  edit := PlainAutomaton.call

namespace Shelf

/-- Where a new automaton comes from. -/
inductive Origin where
  /-- It has no states yet, and an alphabet of some size. -/
  | alphabet (size : Nat)
  /-- A text describes it. -/
  | text (lines : List Line)

/-- The alphabet of a new automaton, or of one that is loaded, leaves room for growth. -/
def Origin.Roomy : Origin → Prop
  | .alphabet size => Automaton.Roomy size
  | .text lines => ∀ model, Model.ofLines lines = .ok model → Automaton.Roomy model.alphabetSize

/-- A call on a shelf of automata, none of which takes two of them. -/
abbrev Call : Type := Rack.Call Origin Automaton.Call Empty

/-- A new automaton comes from an origin that leaves room for growth. -/
abbrev Call.Roomy (call : Call) : Prop := call.Admits Origin.Roomy

section Run

variable {kind : Type} [Editable kind]

/-- A new automaton, or the fault in its place, where a text that describes none has neither. -/
def Origin.make : Origin → Option kind × Option (Option Fault)
  | .alphabet size =>
    match Editable.make size with
    | .ok made => Rack.fresh made
    | .error fault => (none, some (some fault))
  | .text lines =>
    match Model.ofLines lines with
    | .ok model => Rack.fresh (Editable.ofModel model)
    | .error _ => (none, none)

variable (kind) in
/-- How automata of some kind are edited, where what a call did before its fault stays. -/
def rules : Rack.Rules Origin Automaton.Call Empty (Option Fault) kind where
  make := Origin.make
  act call item := Editable.edit item call
  join pairing := pairing.elim

variable (kind) in
/-- The automata that some calls leave in their places, and the fault that ended each call early. -/
def run (calls : List Call) : Rack kind × List (Option Fault) :=
  (Rack.run (rules kind) calls).map id (List.map Option.join)

/-- All automata have a property when they come into being, and no call takes it from them. -/
structure Lasts (holds : kind → Prop) : Prop where
  /-- New automata have it. -/
  make : ∀ alphabetSize item, Editable.make alphabetSize = .ok item → holds item
  /-- Automata of models have it. -/
  ofModel : ∀ model, holds (Editable.ofModel model)
  /-- Automata that are edited keep it. -/
  edit : ∀ item call, holds item → holds (Editable.edit item call).1

/-- A property that lasts is kept by the calls on a shelf. -/
theorem Lasts.keeps {holds : kind → Prop} (lasts : Lasts holds) : (rules kind).Keeps holds where
  make origin item made := by
    -- What is made was built from an alphabet or from a model.
    change origin.make.1 = some item at made
    cases origin with
    | alphabet size =>
      rw [Origin.make] at made
      split at made
      · rename_i built
        cases made
        exact lasts.make size _ built
      · cases made
    | text lines =>
      rw [Origin.make] at made
      split at made
      · cases made
        exact lasts.ofModel _
      · cases made
  act call item held := lasts.edit item call held
  join pairing := pairing.elim

/-- A property that lasts is one of every automaton that a run leaves anywhere. -/
theorem Lasts.run {holds : kind → Prop} (lasts : Lasts holds) (calls : List Call) (place : Nat)
    (item : kind) (present : (run kind calls).1 place = some item) : holds item :=
  lasts.keeps.run calls place item present

end Run

end Shelf

/-- No call changes the alphabet. -/
@[simp] theorem PlainAutomaton.alphabetSize_call (plain : PlainAutomaton) (call : Automaton.Call) :
    (plain.call call).1.alphabetSize = plain.alphabetSize := by
  cases call
  all_goals
    simp only [PlainAutomaton.call, withRoom]
    split_ifs <;> rfl

namespace Automaton

variable {automaton : Automaton} {plain : PlainAutomaton}

/-- Calls in a row, whatever faults they have, keep to the plain automaton. -/
theorem Represents.foldl_call (represents : automaton.Represents plain)
    (roomy : Roomy plain.alphabetSize) (calls : List Call) :
    (calls.foldl (fun automaton call => (automaton.call call).automaton) automaton).Represents
        (calls.foldl (fun plain call => (plain.call call).1) plain) ∧
      (calls.foldl (fun plain call => (plain.call call).1) plain).alphabetSize =
        plain.alphabetSize := by
  -- No call changes the alphabet, so the room condition carries to the next one.
  induction calls generalizing automaton plain with
  | nil => exact ⟨represents, rfl⟩
  | cons call rest hypothesis =>
    have next := (represents.call roomy call).1
    have rest := hypothesis next (by rwa [PlainAutomaton.alphabetSize_call])
    rwa [PlainAutomaton.alphabetSize_call] at rest

/-- The automaton of a model represents the plain one. -/
theorem represents_toPlain {model : Model} (roomy : Roomy model.alphabetSize) :
    model.toAutomaton.Represents model.toPlain ∧
      model.toPlain.alphabetSize = model.alphabetSize := by
  rw [Model.toAutomaton_eq]
  exact (represents_blank model.alphabetSize).foldl_call roomy model.calls

/-- A new automaton over a small alphabet is never refused. -/
theorem ofAlphabet_of_roomy {alphabetSize : Nat} (roomy : Roomy alphabetSize) :
    ofAlphabet alphabetSize = .ok (blank alphabetSize) :=
  -- The first block lies below the limit.
  ofAlphabet_of_isSome (Capacity.isSome_tableWords_of_matrixBytes Capacity.reached_block.bounds.2 roomy)

end Automaton

namespace Shelf

/-- An automaton has room for growth and represents a plain one. -/
def Kept (automaton : Automaton) (plain : PlainAutomaton) : Prop :=
  automaton.Represents plain ∧ Automaton.Roomy plain.alphabetSize

/-- Automata with room for growth are edited as the plain ones that they represent. -/
theorem rules_simulate : (rules Automaton).Simulates (rules PlainAutomaton) Kept Origin.Roomy where
  -- A new automaton represents the empty one, and a loaded one that of its listing.
  make origin roomy := by
    cases origin with
    | alphabet size =>
      have made : (Editable.make size : Except Fault Automaton) = .ok (.blank size) :=
        Automaton.ofAlphabet_of_roomy roomy
      simp only [rules, Origin.make, made]
      exact ⟨.some ⟨Automaton.represents_blank size, roomy⟩, rfl⟩
    | text lines =>
      simp only [rules, Origin.make]
      cases outcome : Model.ofLines lines with
      | error => exact ⟨.none, rfl⟩
      | ok model =>
        have small := roomy model outcome
        obtain ⟨represents, alphabet⟩ := Automaton.represents_toPlain small
        exact ⟨.some ⟨represents, alphabet ▸ small⟩, rfl⟩
  act call automaton plain kept := by
    obtain ⟨represents, room⟩ := kept
    obtain ⟨after, fault⟩ := represents.call room call
    exact ⟨⟨after, (plain.alphabetSize_call call).symm ▸ room⟩, fault⟩
  join pairing := pairing.elim

/-- Every run has the faults that it has on plain automata, and ends with what these show. -/
theorem reports_run (calls : List Call) (roomy : ∀ call ∈ calls, call.Roomy) :
    (run Automaton calls).2 = (run PlainAutomaton calls).2 ∧
      ∀ place, Option.Rel Automaton.Reports ((run Automaton calls).1 place)
        ((run PlainAutomaton calls).1 place) := by
  obtain ⟨last, replies⟩ := rules_simulate.run roomy
  refine ⟨congrArg (List.map Option.join) replies, fun place => ?_⟩
  -- What represents a plain automaton reports what that one shows.
  rcases last.cases place with ⟨free, vacant⟩ | ⟨automaton, plain, held, shown, represents, -⟩
  · change Option.Rel _ ((Rack.run _ calls).1 place) ((Rack.run _ calls).1 place)
    rw [free, vacant]
    exact .none
  · change Option.Rel _ ((Rack.run _ calls).1 place) ((Rack.run _ calls).1 place)
    rw [held, shown]
    exact .some represents.reports

/-- A run with growth, a copy, a merge, refused calls and a slot that is used again. -/
def reuseRun : List Call := [
  .create 0 (.alphabet 2), .act 0 (.setInitial 0), .act 0 (.setTransition 0 300 1),
  .act 0 (.setTransition 300 300 0), .copy 0 1, .act 0 (.merge 0 300), .act 0 (.merge 0 300),
  .act 0 (.addState 300), .act 0 (.setTransition 7 1048576 0), .act 0 (.setTransition 0 0 9)]

/-- Its refused calls are known, the merged loop is there, and the slot used again has none. -/
theorem reports_run_reuse : (∀ call ∈ reuseRun, call.Roomy) ∧
    (run Automaton reuseRun).2 = [none, none, none, none, none, none,
      some (.mergeOnInactive 300), none, some (.stateOutOfRange 1048576 1048576),
      some (.symbolOutOfRange 9 2)] ∧
    ∃ automaton, (run Automaton reuseRun).1 0 = some automaton ∧
      automaton.hasTransition 0 0 1 = .ok true ∧ automaton.hasTransition 0 0 0 = .ok true ∧
      automaton.isActive 7 = true ∧ automaton.hasTransition 300 300 0 = .ok false := by
  have roomy : ∀ call ∈ reuseRun, call.Roomy := by
    have small : Automaton.Roomy 2 := by decide +kernel
    simp [reuseRun, Call.Roomy, Rack.Call.Admits, Origin.Roomy, small]
  obtain ⟨faults, shelves⟩ := reports_run reuseRun roomy
  refine ⟨roomy, faults.trans (by decide +kernel), ?_⟩
  -- The plain run is computed, and what it ends with is what the automaton reports.
  have shown : ((run PlainAutomaton reuseRun).1 0).any fun plain =>
      decide (plain.alphabetSize = 2 ∧ ⟨0, 0, 1⟩ ∈ plain.transitions ∧
        ⟨0, 0, 0⟩ ∈ plain.transitions ∧ 7 ∈ plain.active ∧
        ⟨300, 300, 0⟩ ∉ plain.transitions) := by decide +kernel
  obtain ⟨plain, held, shown⟩ := Option.any_eq_true _ _ |>.1 shown
  obtain ⟨alphabet, looped, carried, source, clean⟩ := of_decide_eq_true shown
  have related := shelves 0
  rw [held] at related
  generalize (run Automaton reuseRun).1 0 = reached at related ⊢
  cases related with
  | @some automaton _ reports =>
    refine ⟨automaton, rfl, ?_⟩
    simp [reports.hasTransition, reports.isActive, alphabet, looped, carried, source, clean]

end Shelf

end NfaInduction
