import NfaInduction.Proofs.Rack
import NfaInduction.Proofs.StateSet.InPlace

/-! Over any run of calls on many sets, each of them stands for a finite set below a capacity. -/

namespace NfaInduction

namespace StateSet

/-- A call on a set. -/
inductive Order where
  /-- Adds a state and tells whether it was there. -/
  | add (state : Nat)
  /-- Removes a state and tells whether it was there. -/
  | remove (state : Nat)
  /-- Tells whether a state is there. -/
  | test (state : Nat)
  /-- Removes all states. -/
  | clear
  /-- Lets one state stand for another. -/
  | absorb (kept absorbed : Nat)
  /-- Makes room for some states. -/
  | grow (states : Nat)
  /-- Tells whether there is any state. -/
  | any
deriving DecidableEq

/-- A call on a set together with another one. -/
inductive Pairing where
  /-- Keeps the states that the other set has as well. -/
  | inter
  /-- Adds the states of the other set. -/
  | union
  /-- Adds the states of the other set, and removes those of both. -/
  | symmDiff
  /-- Tells whether both have a state. -/
  | meets
  /-- Tells whether either has a state. -/
  | covers
  /-- Tells whether exactly one of them has a state. -/
  | differs
  /-- Tells whether they are equal. -/
  | equals
deriving DecidableEq

/-- The answer to a call, if there is anything to tell, or the fault that ended it. -/
abbrev Reply : Type := Except Fault (Option Bool)

/-- A call on a rack of sets. -/
abbrev Call : Type := Rack.Call Nat Order Pairing

/-- How sets of some kind are called upon. -/
abbrev Rules (kind : Type) : Type := Rack.Rules Nat Order Pairing Reply kind

/-- Sets after checked operations, which leave them as they are after a fault. -/
def checked : Rules StateSet where
  make states := Rack.fresh (ofCapacity states)
  act order set :=
    match order with
    | .add state => (settled set (set.insert? state)).map id (.map some)
    | .remove state => (settled set (set.erase? state)).map id (.map some)
    | .test state => (set, (set.contains? state).map some)
    | .clear => (set.clear, .ok none)
    | .absorb kept absorbed => settled set ((set.absorb? kept absorbed).map (none, ·))
    | .grow states => (set.grow states, .ok none)
    | .any => (set, .ok (some set.isNonempty))
  join pairing left right :=
    match pairing with
    | .inter => settled left ((left.inter? right).map (none, ·))
    | .union => settled left ((left.union? right).map (none, ·))
    | .symmDiff => settled left ((left.symmDiff? right).map (none, ·))
    | .meets => (left, (left.meets? right).map some)
    | .covers => (left, (left.covers? right).map some)
    | .differs => (left, (left.differs? right).map some)
    | .equals => (left, .ok (some (left == right)))

/-- The reply to work that has something to tell. -/
def told (work : InPlace Bool) (set : StateSet) : StateSet × Reply :=
  (work.perform set).map id (.map some)

/-- The reply to work that has nothing to tell. -/
def done (work : InPlace Unit) (set : StateSet) : StateSet × Reply :=
  (work.perform set).map id (.map fun _ => none)

/-- Sets that are changed in place, as far as the work gets. -/
def inPlace : Rules StateSet where
  make states := Rack.fresh (ofCapacity states)
  act order :=
    match order with
    | .add state => told (.add state)
    | .remove state => told (.remove state)
    | .test state => told (.test state)
    | .clear => done .clear
    | .absorb kept absorbed => done (.absorb kept absorbed)
    | .grow states => done (.grow states)
    | .any => told .any
  join pairing left right :=
    match pairing with
    | .inter => done (.combine (· &&& ·) right) left
    | .union => done (.combine (· ||| ·) right) left
    | .symmDiff => done (.combine (· ^^^ ·) right) left
    | .meets => told (.probe (· &&& ·) right) left
    | .covers => told (.probe (· ||| ·) right) left
    | .differs => told (.probe (· ^^^ ·) right) left
    | .equals => (left, .ok (some (left.words == right.words)))

end StateSet

namespace BoundedSet

open StateSet (Reply)

/-- The outcome of a call that needs room for a state. -/
def withRoom (set : BoundedSet) (state : Nat)
    (next : state < set.capacity → BoundedSet × Reply) : BoundedSet × Reply :=
  if within : state < set.capacity then next within
  else (set, .error (.stateOutOfRange state set.capacity))

/-- The outcome of a call that needs sets of one capacity. -/
def alongside (left right : BoundedSet)
    (next : left.capacity = right.capacity → BoundedSet × Reply) : BoundedSet × Reply :=
  if same : left.capacity = right.capacity then next same else (left, .error .differentCapacities)

/-- Finite sets with their capacities, set by set. -/
def rules : StateSet.Rules BoundedSet where
  make states := Rack.fresh (ofCapacity states)
  act order set :=
    match order with
    | .add state => set.withRoom state fun within =>
      (set.add state within, .ok (some (decide (state ∈ set.members))))
    | .remove state => set.withRoom state fun _ =>
      (set.remove state, .ok (some (decide (state ∈ set.members))))
    | .test state => set.withRoom state fun _ => (set, .ok (some (decide (state ∈ set.members))))
    | .clear => (set.clear, .ok none)
    | .absorb kept absorbed => set.withRoom kept fun within => set.withRoom absorbed fun _ =>
      (set.absorb kept absorbed within, .ok none)
    | .grow states => (set.grow states, .ok none)
    | .any => (set, .ok (some (decide set.members.Nonempty)))
  join pairing left right :=
    match pairing with
    | .inter => left.alongside right fun _ => (left.inter right, .ok none)
    | .union => left.alongside right fun same => (left.union right same, .ok none)
    | .symmDiff => left.alongside right fun same => (left.symmDiff right same, .ok none)
    | .meets => left.alongside right fun _ =>
      (left, .ok (some (decide (left.inter right).members.Nonempty)))
    | .covers => left.alongside right fun same =>
      (left, .ok (some (decide (left.union right same).members.Nonempty)))
    | .differs => left.alongside right fun same =>
      (left, .ok (some (decide (left.symmDiff right same).members.Nonempty)))
    | .equals =>
      (left, .ok (some (decide (left.capacity = right.capacity ∧ left.members = right.members))))

end BoundedSet

namespace StateSet

/-- Work with nothing to tell is done as by a checked operation with the same outcome. -/
theorem done_eq {work : InPlace Unit} {set : StateSet} {result : Except Fault StateSet}
    (performed : work.perform set = settled set (result.map fun after => ((), after))) :
    done work set = settled set (result.map (none, ·)) := by
  rw [done, performed]
  cases result <;> rfl

/-- A fault comes before the first change, so that work in place does what checked operations do. -/
theorem inPlace_eq_checked : inPlace = checked := by
  -- Each call in place was found to be performed as the checked operation of its name.
  refine congrArg₂ (Rack.Rules.mk _) (funext₂ fun order set => ?_)
    (funext₃ fun pairing left right => ?_)
  · cases order with
    | add state => exact congrArg (Prod.map id (Except.map some)) (InPlace.perform_add state)
    | remove state => exact congrArg (Prod.map id (Except.map some)) (InPlace.perform_remove state)
    | test state => exact congrArg (Prod.map id (Except.map some)) (InPlace.perform_test state)
    | clear => exact congrArg (Prod.map id (Except.map fun _ => none)) InPlace.perform_clear
    | absorb kept absorbed => exact done_eq (InPlace.perform_absorb kept absorbed)
    | grow states => exact congrArg (Prod.map id (Except.map fun _ => none)) (InPlace.perform_grow states)
    | any => rfl
  · cases pairing with
    | inter => exact done_eq (InPlace.perform_combine _)
    | union => exact done_eq (InPlace.perform_combine _)
    | symmDiff => exact done_eq (InPlace.perform_combine _)
    | meets => exact congrArg (Prod.map id (Except.map some)) (InPlace.perform_probe _)
    | covers => exact congrArg (Prod.map id (Except.map some)) (InPlace.perform_probe _)
    | differs => exact congrArg (Prod.map id (Except.map some)) (InPlace.perform_probe _)
    | equals =>
      have same : left = right ↔ left.words = right.words := by
        cases left
        cases right
        simp
      have alike : (left.words == right.words) = (left == right) := by
        rw [Bool.eq_iff_iff, beq_iff_eq, beq_iff_eq, same]
      exact congrArg (fun answer => (left, Except.ok (some answer))) alike

variable {set left right : StateSet}

/-- What is answered about a member is whether it is one of the finite set. -/
theorem contains_eq_decide (state : Nat) :
    set.contains state = decide (state ∈ set.bounded.members) := by
  simp

/-- A set is not empty where the finite set has a member. -/
theorem isNonempty_eq_decide : set.isNonempty = decide set.bounded.members.Nonempty := by
  rw [Bool.eq_iff_iff, isNonempty_iff, decide_eq_true_iff, Finset.Nonempty]
  exact exists_congr fun state => mem_bounded.symm

/-- A call that needs room for a state has its outcome, or is refused. -/
theorem bounded_withRoom {state : Nat} {outcome : StateSet × Reply}
    {next : state < set.bounded.capacity → BoundedSet × Reply}
    (made : ∀ within, outcome.map bounded id = next within)
    (refused : ¬state < set.capacity →
      outcome = (set, .error (.stateOutOfRange state set.capacity))) :
    outcome.map bounded id = set.bounded.withRoom state next := by
  -- The same states have room in the set and in the finite set.
  rw [BoundedSet.withRoom]
  by_cases within : state < set.bounded.capacity
  · rw [dif_pos within, made within]
  · rw [dif_neg within, refused within]
    rfl

/-- A call that alters a set at a state tells whether the state was there. -/
theorem bounded_altered {state : Nat} {after : StateSet}
    {next : state < set.bounded.capacity → BoundedSet}
    (altered : ∀ within, after.bounded = next within) :
    ((settled set (set.within state (set.contains state, after))).map id (.map some)).map bounded id =
      set.bounded.withRoom state fun within =>
        (next within, .ok (some (decide (state ∈ set.bounded.members)))) := by
  -- Where there is room the answer is about the set before the change.
  refine bounded_withRoom (fun within => ?_) fun beyond => ?_
  · have room : state < set.capacity := within
    rw [StateSet.within, if_pos room, contains_eq_decide, ← altered within]
    rfl
  · rw [StateSet.within, if_neg beyond]
    rfl

/-- Each call on a set does to the finite set what it does to the set. -/
theorem bounded_act (order : Order) (set : StateSet) :
    (checked.act order set).map bounded id = BoundedSet.rules.act order set.bounded := by
  -- Each order either has room for its states or names the first that has none.
  cases order with
  | add state => exact bounded_altered bounded_insert
  | remove state => exact bounded_altered fun _ => set.bounded_erase state
  | test state =>
    refine bounded_withRoom (fun within => ?_) fun beyond => ?_
    · have found : set.contains? state = .ok (set.contains state) := if_pos within
      simp only [checked, found, contains_eq_decide]
      rfl
    · have refused : set.contains? state = .error _ := if_neg beyond
      simp only [checked, refused]
      rfl
  | clear => exact congrArg (·, _) set.bounded_clear
  | absorb kept absorbed =>
    -- The kept state is looked up first, so its fault is the one reported.
    refine bounded_withRoom (fun first => ?_) fun beyond => ?_
    · have known : set.within kept () = .ok () := if_pos first
      refine bounded_withRoom (fun second => ?_) fun beyond => ?_
      · have done : set.within absorbed (set.absorb kept absorbed) = .ok _ := if_pos second
        simp only [checked, absorb?, bind_of_ok known, done]
        exact congrArg (·, _) (bounded_absorb first absorbed)
      · have refused : set.within absorbed (set.absorb kept absorbed) = .error _ := if_neg beyond
        simp only [checked, absorb?, bind_of_ok known, refused]
        rfl
    · have refused : set.within kept () = .error _ := if_neg beyond
      simp only [checked, absorb?, bind_of_error refused]
      rfl
  | grow states => exact congrArg (·, _) (set.bounded_grow states)
  | any => exact congrArg (fun held => (set.bounded, Except.ok (some held))) isNonempty_eq_decide

/-- A call that needs sets of one capacity has its outcome, or is refused. -/
theorem bounded_alongside {outcome : StateSet × Reply}
    {next : left.bounded.capacity = right.bounded.capacity → BoundedSet × Reply}
    (made : left.words.size = right.words.size → ∀ same, outcome.map bounded id = next same)
    (refused : left.words.size ≠ right.words.size → outcome = (left, .error .differentCapacities)) :
    outcome.map bounded id = left.bounded.alongside right.bounded next := by
  -- Sets have as many words exactly if their capacities are the same.
  rw [BoundedSet.alongside]
  by_cases size : left.words.size = right.words.size
  · have same := capacity_eq_of_size size
    rw [dif_pos same, made size same]
  · have different : left.bounded.capacity ≠ right.bounded.capacity := fun same =>
      size (Nat.eq_of_mul_eq_mul_right (by decide) same)
    rw [dif_neg different, refused size]
    rfl

/-- A call that combines two sets leaves what the finite sets combine to. -/
theorem bounded_combined {after : StateSet}
    {next : left.bounded.capacity = right.bounded.capacity → BoundedSet}
    (combined : left.words.size = right.words.size → ∀ same, after.bounded = next same) :
    (settled left ((left.alongside right fun _ => after).map (none, ·))).map bounded id =
      left.bounded.alongside right.bounded fun same => (next same, .ok none) := by
  -- The sets are combined where their capacities are the same.
  refine bounded_alongside (fun size same => ?_) fun different => ?_
  · rw [StateSet.alongside, if_pos size, ← combined size same]
    rfl
  · rw [StateSet.alongside, if_neg different]
    rfl

/-- A call that asks about two sets is answered as for the finite sets. -/
theorem bounded_probed {held : Bool}
    {verdict : left.bounded.capacity = right.bounded.capacity → Bool}
    (probed : left.words.size = right.words.size → ∀ same, held = verdict same) :
    (left, (left.alongside right fun _ => held).map some).map bounded id =
      left.bounded.alongside right.bounded fun same => (left.bounded, .ok (some (verdict same))) := by
  -- The sets are compared where their capacities are the same.
  refine bounded_alongside (fun size same => ?_) fun different => ?_
  · rw [StateSet.alongside, if_pos size, ← probed size same]
    rfl
  · rw [StateSet.alongside, if_neg different]
    rfl

section Pair

variable (size : left.words.size = right.words.size)
include size

/-- Sets meet where their intersection has a member. -/
theorem meets_eq_decide :
    left.meets right = decide (left.bounded.inter right.bounded).members.Nonempty := by
  rw [Bool.eq_iff_iff, meets_iff size, decide_eq_true_iff]
  simp [Finset.Nonempty]

/-- Sets cover something where their union has a member. -/
theorem covers_eq_decide (same : left.bounded.capacity = right.bounded.capacity) :
    left.covers right = decide (left.bounded.union right.bounded same).members.Nonempty := by
  rw [Bool.eq_iff_iff, covers_iff size, decide_eq_true_iff]
  simp [Finset.Nonempty]

/-- Sets differ where their symmetric difference has a member. -/
theorem differs_eq_decide (same : left.bounded.capacity = right.bounded.capacity) :
    left.differs right = decide (left.bounded.symmDiff right.bounded same).members.Nonempty := by
  -- A state is in exactly one of the sets if it is in the union without the intersection.
  rw [Bool.eq_iff_iff, differs_iff size, decide_eq_true_iff]
  refine exists_congr fun state => ?_
  simp only [BoundedSet.symmDiff_members, Finset.mem_union, Finset.mem_sdiff, mem_bounded]
  grind

end Pair

/-- Each call on two sets does to the finite sets what it does to the sets. -/
theorem bounded_join (pairing : Pairing) (left right : StateSet) :
    (checked.join pairing left right).map bounded id =
      BoundedSet.rules.join pairing left.bounded right.bounded := by
  -- There is a case for each call; sets are equal where their capacities and members are.
  cases pairing with
  | inter => exact bounded_combined fun size _ => bounded_inter size
  | union => exact bounded_combined fun size _ => bounded_union size
  | symmDiff => exact bounded_combined fun size _ => bounded_symmDiff size
  | meets => exact bounded_probed fun size _ => meets_eq_decide size
  | covers => exact bounded_probed covers_eq_decide
  | differs => exact bounded_probed differs_eq_decide
  | equals =>
    have same : left = right ↔
        left.bounded.capacity = right.bounded.capacity ∧ left.bounded.members = right.bounded.members := by
      rw [← bounded_inj]
      exact ⟨fun equal => ⟨congrArg _ equal, congrArg _ equal⟩,
        fun equal => BoundedSet.ext equal.1 fun state => by rw [equal.2]⟩
    have answer : (left == right) = decide (left.bounded.capacity = right.bounded.capacity ∧
        left.bounded.members = right.bounded.members) := by
      rw [Bool.eq_iff_iff, beq_iff_eq, decide_eq_true_iff, same]
    exact congrArg (fun held => (left.bounded, Except.ok (some held))) answer

/-- Checked operations are followed by finite sets. -/
theorem checked_follows : checked.Follows bounded BoundedSet.rules where
  make states := congrArg Rack.fresh (bounded_ofCapacity states)
  act := bounded_act
  join := bounded_join

/-- A checked operation leaves the set that it is refused on. -/
theorem settled_of_error {α : Type} {result : Except Fault (α × StateSet)} {fault : Fault}
    (refused : (settled set result).2 = .error fault) : (settled set result).1 = set := by
  -- What is settled without a fault has no fault to report.
  cases result with
  | ok => cases refused
  | error => rfl

/-- A call leaves the set that it is refused on. -/
theorem act_of_error {order : Order} {fault : Fault}
    (refused : (checked.act order set).2 = .error fault) : (checked.act order set).1 = set := by
  -- A call that changes the set is settled, and any other one leaves the set anyway.
  cases order with
  | add state => exact settled_of_error (map_eq_error.1 refused)
  | remove state => exact settled_of_error (map_eq_error.1 refused)
  | test state => rfl
  | clear => cases refused
  | absorb kept absorbed => exact settled_of_error refused
  | grow states => cases refused
  | any => rfl

/-- A call leaves the first of two sets that it is refused on. -/
theorem join_of_error {pairing : Pairing} {fault : Fault}
    (refused : (checked.join pairing left right).2 = .error fault) :
    (checked.join pairing left right).1 = left := by
  -- A call that combines the sets is settled, and any other one leaves them anyway.
  cases pairing with
  | inter => exact settled_of_error refused
  | union => exact settled_of_error refused
  | symmDiff => exact settled_of_error refused
  | meets => rfl
  | covers => rfl
  | differs => rfl
  | equals => rfl

/--
Any run on packed sets has the replies and leaves the sets that it does for finite sets.

The faults are those of states without room and of sets of different capacities. A call that has
one leaves all sets as they are, although it works in place.
-/
theorem bounded_run (calls : List Call) :
    Rack.run inPlace calls = Rack.run checked calls ∧
    (Rack.run checked calls).map (Rack.seen bounded) id = Rack.run BoundedSet.rules calls ∧
    (∀ left right : StateSet, left.bounded = right.bounded ↔ left = right) ∧
    ∀ (rack : Rack StateSet) (call : Call) (fault : Fault),
      (rack.call inPlace call).2 = some (.error fault) → (rack.call inPlace call).1 = rack := by
  refine ⟨by rw [inPlace_eq_checked], checked_follows.run calls, fun _ _ => bounded_inj, ?_⟩
  intro rack call fault refused
  rw [inPlace_eq_checked] at refused ⊢
  -- Nothing new is refused, and what a fault was found for stays as it is.
  let isFault (reply : Reply) : Prop := ∃ fault, reply = .error fault
  refine Rack.call_of_kept isFault ?_ (fun _ _ => ?_) (fun _ _ _ => ?_) rack call
    ⟨_, refused, fault, rfl⟩
  · intro states reply replied
    cases replied
  · rintro ⟨fault, refused⟩
    exact act_of_error refused
  · rintro ⟨fault, refused⟩
    exact join_of_error refused

end StateSet

end NfaInduction
