import Mathlib.Order.Lattice.Nat
import NfaInduction.Proofs.Automaton.Call
import NfaInduction.Proofs.Automaton.Reports

/-! No call makes more room than the slots call for that are in use after it. -/

namespace NfaInduction

namespace Capacity

/-- Number of slots up to the highest one of some, and none without any. -/
def span (slots : Finset Nat) : Nat := slots.sup (· + 1)

/-- Some slots span no more than a number exactly if each of them lies below it. -/
theorem span_le_iff {slots : Finset Nat} {bound : Nat} :
    span slots ≤ bound ↔ ∀ slot ∈ slots, slot < bound :=
  Finset.sup_le_iff

/-- More slots span at least as much. -/
theorem span_mono {fewer more : Finset Nat} (subset : fewer ⊆ more) : span fewer ≤ span more :=
  Finset.sup_mono subset

/-- Some slots and others together span what the higher ones span. -/
theorem span_union (slots others : Finset Nat) :
    span (slots ∪ others) = max (span slots) (span others) :=
  Finset.sup_union

/-- A slot besides others spans what is below it, or nothing more than they do. -/
theorem span_insert (slot : Nat) (others : Finset Nat) :
    span (insert slot others) = max (slot + 1) (span others) :=
  Finset.sup_insert

/-- All slots below a number span this number. -/
theorem span_range (number : Nat) : span (Finset.range number) = number := by
  refine Nat.le_antisymm (span_le_iff.2 fun slot => Finset.mem_range.1) ?_
  cases number with
  | zero => exact Nat.zero_le _
  | succ last => exact span_le_iff.1 (Nat.le_refl _) last (Finset.self_mem_range_succ last)

/-- The highest one of some slots is the last that they span. -/
theorem span_of_isGreatest {slots : Finset Nat} {highest : Nat}
    (greatest : IsGreatest (slots : Set Nat) highest) : span slots = highest + 1 := by
  obtain ⟨member, above⟩ := greatest
  refine Nat.le_antisymm (span_le_iff.2 fun slot held => Nat.lt_succ_of_le (above held)) ?_
  exact span_le_iff.1 (Nat.le_refl _) highest member

end Capacity

namespace Automaton

variable {automaton before after : Automaton} {plain next : PlainAutomaton}

/-- Slots in use. -/
def usedSlots (automaton : Automaton) : Finset Nat := automaton.states.toFinset

/-- The slots in use are the states of the plain automaton. -/
theorem Represents.usedSlots_eq (represents : automaton.Represents plain) :
    automaton.usedSlots = plain.active := by
  ext state
  rw [usedSlots, List.mem_toFinset, represents.mem_states]

/-- The slots in use call for no more room than there is. -/
theorem Represents.grown_span_le (represents : automaton.Represents plain) :
    Capacity.grown (Capacity.span automaton.usedSlots) ≤ automaton.maxStates := by
  rw [represents.shaped.reached.grown_le_iff, represents.usedSlots_eq, Capacity.span_le_iff]
  exact fun state member => represents.lt_maxStates member

/-- The room is what it was before, or what the slots in use call for if that is more. -/
def Widened (before after : Automaton) : Prop :=
  after.maxStates = max before.maxStates (Capacity.grown (Capacity.span after.usedSlots))

/-- Where the room is the same, it was enough. -/
theorem Represents.widened_of_eq (represents : after.Represents next)
    (same : after.maxStates = before.maxStates) : Widened before after := by
  have enough := represents.grown_span_le
  rw [Widened, ← same, Nat.max_eq_left enough]

/-- Slots in use before stay so if more are taken into use on top. -/
theorem Widened.trans {middle : Automaton} (first : Widened before middle)
    (second : Widened middle after) (kept : middle.usedSlots ⊆ after.usedSlots) :
    Widened before after := by
  -- What the slots in between call for is no more than what all slots call for in the end.
  have fewer := Capacity.grown_le_grown (Capacity.span_mono kept)
  rw [Widened] at first second ⊢
  omega

/-- The room and the slots in use depend on the set of active states only. -/
theorem Widened.of_active {other : Automaton} (widened : Widened before after)
    (same : other.active = after.active) : Widened before other := by
  rw [Widened, usedSlots, states, maxStates, same]
  exact widened

/-- Taking a slot into use needs no room besides the slot. -/
theorem maxStates_occupy (automaton : Automaton) (state : Nat) :
    (automaton.occupy state).maxStates = automaton.maxStates := by
  rw [occupy]
  split
  · rfl
  · exact StateSet.capacity_insert automaton.active state

/-- Activation leaves the room that there was, or what the state calls for if that is more. -/
theorem Represents.maxStates_activate (represents : automaton.Represents plain) {state : Nat}
    (done : automaton.activate state = .done after) :
    after.maxStates = max automaton.maxStates (Capacity.grown (state + 1)) := by
  have reached := represents.shaped.reached
  rw [Automaton.activate] at done
  split at done
  · -- Where there is room for the state, it calls for no more.
    rename_i room
    obtain rfl : automaton.occupy state = after := congrArg Edit.automaton done
    rw [maxStates_occupy, Nat.max_eq_left (reached.grown_le_iff.2 room)]
  · rename_i short
    split at done
    · -- Doubling stops at the room that the state calls for.
      rename_i wider outcome
      obtain rfl : wider.occupy state = after := congrArg Edit.automaton done
      obtain ⟨capacity, ⟨admitted, rfl⟩, ends, larger, _, _, _, active, _, _⟩ :=
        growFor_eq_ok reached outcome
      rw [maxStates_occupy, maxStates, active, capacity_grow larger ends]
      rw [reached.doubled_eq_grown (Nat.le_of_not_lt short) admitted] at larger ⊢
      exact (Nat.max_eq_right larger).symm
    · cases congrArg Edit.fault done

/-- Activation makes room for the state and for nothing else, or does nothing. -/
theorem Represents.widened_activate (represents : automaton.Represents plain) (state : Nat) :
    Widened automaton (automaton.activate state).automaton ∧
      automaton.usedSlots ⊆ (automaton.activate state).automaton.usedSlots := by
  rcases represents.activate state with ⟨after, done, grown⟩ | ⟨fault, failed, _⟩
  · -- The state is added to the slots in use, and calls for room like any of them.
    have room := represents.maxStates_activate done
    have enough := represents.grown_span_le
    have both := grown.usedSlots_eq
    rw [PlainAutomaton.addState_active, ← represents.usedSlots_eq] at both
    rw [done]
    refine ⟨?_, both ▸ Finset.subset_insert state automaton.usedSlots⟩
    show after.maxStates = max automaton.maxStates (Capacity.grown (Capacity.span after.usedSlots))
    rw [room, both, Capacity.span_insert, Capacity.grown_max]
    omega
  · rw [failed]
    exact ⟨represents.widened_of_eq rfl, Finset.Subset.refl _⟩

/-- Flags are set where there is room already. -/
theorem Represents.widened_andThen (represents : automaton.Represents plain) (state : Nat)
    {change : Automaton → Automaton} (kept : ∀ automaton, (change automaton).active = automaton.active) :
    Widened automaton ((automaton.activate state).andThen (.done <| change ·)).automaton := by
  -- Whatever follows the activation leaves the active set alone, so only that step widens it.
  have widened := (represents.widened_activate state).1
  generalize automaton.activate state = edit at widened ⊢
  obtain ⟨middle, fault⟩ := edit
  cases fault with
  | none => exact widened.of_active (kept middle)
  | some fault => exact widened

/-- Transitions are added where there is room already. -/
theorem active_link (automaton : Automaton) (source target symbol : Nat) :
    (automaton.link source target symbol).active = automaton.active := by
  rw [link]
  split <;> rfl

/-- A transition makes room for its ends, as far as there can be any. -/
theorem Represents.widened_setTransition (represents : automaton.Represents plain)
    (source target : Nat) (symbol : Symbol) :
    Widened automaton (automaton.setTransition source target symbol).automaton := by
  rw [Automaton.setTransition]
  split
  · exact represents.widened_of_eq rfl
  · -- The target is activated in what the activation of the source has left.
    have first := (represents.widened_activate source).1
    rcases represents.activate source with ⟨middle, done, grown⟩ | ⟨fault, failed, _⟩
    · obtain ⟨second, kept⟩ := grown.widened_activate target
      rw [done] at first ⊢
      have both := first.trans second kept
      show Widened automaton ((middle.activate target).andThen _).automaton
      generalize middle.activate target = edit at both ⊢
      obtain ⟨last, fault⟩ := edit
      cases fault with
      | none => exact both.of_active (active_link ..)
      | some fault => exact both
    · rw [failed]
      exact represents.widened_of_eq rfl

/-- Moving rows takes no slot into use and none out of use. -/
theorem active_moveBelow (automaton : Automaton) (kept absorbed count : Nat) :
    (automaton.moveBelow kept absorbed count).active = automaton.active := by
  -- Moving one symbol's rows touches no flag; the induction is on the symbols moved.
  induction count with
  | zero => rfl
  | succ count ih =>
    rw [moveBelow, Nat.fold_succ]
    exact (flags_moveRows _ kept absorbed count).1.trans ih

/-- A merge keeps the room, also that of the state that is gone. -/
theorem maxStates_merge (automaton : Automaton) (kept absorbed : Nat) :
    (automaton.merge kept absorbed).automaton.maxStates = automaton.maxStates := by
  -- A merge is refused and changes nothing, or takes a slot out of use.
  rw [merge]
  split_ifs
  · rfl
  · rfl
  · rfl
  · rw [Edit.done, fuse_eq, maxStates, active_moveBelow]
    exact StateSet.capacity_erase automaton.active absorbed

/-- No call makes more room than the slots in use after it call for. -/
theorem Represents.widened_call (represents : automaton.Represents plain) (call : Call) :
    Widened automaton (automaton.call call).automaton := by
  -- Every call but a merge starts with an activation, and a merge keeps the size.
  cases call with
  | addState state => exact (represents.widened_activate state).1
  | setInitial state => exact represents.widened_andThen state fun _ => rfl
  | setFinal state => exact represents.widened_andThen state fun _ => rfl
  | setTransition source target symbol =>
    exact represents.widened_setTransition source target symbol
  | merge kept absorbed =>
    exact (represents.matches_merge kept absorbed).1.widened_of_eq
      (automaton.maxStates_merge kept absorbed)

end Automaton

end NfaInduction
