import Mathlib.Data.Option.Basic

/-! Runs of calls on many things of one kind, and what they have in common with other runs. -/

namespace NfaInduction

/-- Places for any number of things, each of them vacant or in use. -/
abbrev Rack (kind : Type) : Type := Nat → Option kind

namespace Rack

variable {seed order pairing reply kind other : Type}

variable (seed order pairing) in
/-- A call on a rack. -/
inductive Call where
  /-- Puts a new thing into a place, unless it is refused. -/
  | create (place : Nat) (origin : seed)
  /-- Puts a copy of a thing into another place, vacant or in use. -/
  | copy (source target : Nat)
  /-- Calls on the thing in a place. -/
  | act (place : Nat) (order : order)
  /-- Calls on the thing in a place together with another one, or with itself. -/
  | join (target source : Nat) (pairing : pairing)
deriving DecidableEq

/-- New things come from origins of some sort only. -/
def Call.Admits (admits : seed → Prop) : Call seed order pairing → Prop
  | .create _ origin => admits origin
  | .copy .. | .act .. | .join .. => True

variable (seed order pairing reply kind) in
/-- How things of one kind come into being, and what each call leaves of them and replies. -/
structure Rules where
  /-- A new thing unless it is refused, and the reply if there is any. -/
  make : seed → Option kind × Option reply
  /-- What a call leaves of a thing, and the reply. -/
  act : order → kind → kind × reply
  /-- What a call with another thing leaves of the first one, and the reply. -/
  join : pairing → kind → kind → kind × reply

/-- A new thing that is never refused. -/
def fresh (item : kind) : Option kind × Option reply := (some item, none)

/-- The rack without things. -/
def vacant : Rack kind := fun _ => none

/-- The rack with a thing in a place. -/
def put (rack : Rack kind) (place : Nat) (item : kind) : Rack kind :=
  fun named => if named = place then some item else rack named

/-- What is put where it already is leaves the rack as it is. -/
theorem put_of_present {rack : Rack kind} {place : Nat} {item : kind}
    (present : rack place = some item) : rack.put place item = rack := by
  -- The place has the thing already, and no other place is changed.
  funext named
  rw [put]
  split
  · rename_i same
    rw [same, present]
  · rfl

/-- The rack after a call, and the reply if there is any. -/
def call (rules : Rules seed order pairing reply kind) (rack : Rack kind) :
    Call seed order pairing → Rack kind × Option reply
  -- A refused origin leaves the place as it was, and so does a call on a vacant one.
  | .create place origin =>
    match rules.make origin with
    | (some item, reply) => (rack.put place item, reply)
    | (none, reply) => (rack, reply)
  | .copy source target =>
    match rack source with
    | some item => (rack.put target item, none)
    | none => (rack, none)
  | .act place order =>
    match rack place with
    | some item =>
      let (after, reply) := rules.act order item
      (rack.put place after, some reply)
    | none => (rack, none)
  | .join target source pairing =>
    match rack target, rack source with
    | some item, some partner =>
      let (after, reply) := rules.join pairing item partner
      (rack.put target after, some reply)
    | _, _ => (rack, none)

/-- The rack after some calls, and the reply to each of them. -/
def after (rules : Rules seed order pairing reply kind) (rack : Rack kind) :
    List (Call seed order pairing) → Rack kind × List (Option reply)
  | [] => (rack, [])
  | call :: rest =>
    let (next, reply) := rack.call rules call
    let (last, replies) := next.after rules rest
    (last, reply :: replies)

/-- The rack that some calls fill from the vacant one, and the reply to each of them. -/
def run (rules : Rules seed order pairing reply kind) (calls : List (Call seed order pairing)) :
    Rack kind × List (Option reply) := vacant.after rules calls

/-- A rack stays as it is where the thing that was called upon does. -/
theorem call_of_kept {rules : Rules seed order pairing reply kind} (kept : reply → Prop)
    (make : ∀ origin, ∀ reply ∈ (rules.make origin).2, kept reply → (rules.make origin).1 = none)
    (act : ∀ order item, kept (rules.act order item).2 → (rules.act order item).1 = item)
    (join : ∀ pairing item partner, kept (rules.join pairing item partner).2 →
      (rules.join pairing item partner).1 = item)
    (rack : Rack kind) (call : Call seed order pairing)
    (told : ∃ reply ∈ (rack.call rules call).2, kept reply) : (rack.call rules call).1 = rack := by
  -- Whatever is put into a place was there before.
  obtain ⟨reply, replied, held⟩ := told
  cases call with
  | create place origin =>
    have refused := make origin
    rw [Rack.call] at replied ⊢
    -- A reply of that kind to an origin says that nothing was made from it.
    generalize rules.make origin = made at refused replied
    obtain ⟨none | item, answer⟩ := made
    · rfl
    · cases refused reply replied held
  | copy source =>
    rw [Rack.call] at replied
    split at replied <;> cases replied
  | act place order =>
    rw [Rack.call] at replied ⊢
    split at replied
    · rename_i item present
      cases replied
      exact put_of_present (present.trans (congrArg some (act order item held).symm))
    · rfl
  | join target source pairing =>
    rw [Rack.call] at replied ⊢
    split at replied
    · rename_i item partner present _
      cases replied
      exact put_of_present (present.trans (congrArg some (join pairing item partner held).symm))
    · rfl

/-- Places are in use together, by things that are related. -/
def Matches (related : kind → other → Prop) (rack : Rack kind) (others : Rack other) : Prop :=
  ∀ place, Option.Rel related (rack place) (others place)

section Matches

variable {related : kind → other → Prop} {rack : Rack kind} {others : Rack other}

/-- Related things may be put into any place. -/
theorem Matches.put (before : Matches related rack others) {item : kind} {twin : other}
    (held : related item twin) (place : Nat) :
    Matches related (rack.put place item) (others.put place twin) := by
  -- The things that are put are related, and all other places are as before.
  intro named
  rw [Rack.put, Rack.put]
  split
  · exact .some held
  · exact before named

/-- A place of matching racks is vacant in both or holds things that are related. -/
theorem Matches.cases (before : Matches related rack others) (place : Nat) :
    (rack place = none ∧ others place = none) ∨
      ∃ item twin, rack place = some item ∧ others place = some twin ∧ related item twin := by
  -- One of them cannot be vacant where the other one is not.
  have held := before place
  generalize rack place = left, others place = right at held ⊢
  cases held with
  | none => exact .inl ⟨rfl, rfl⟩
  | some held => exact .inr ⟨_, _, rfl, rfl, held⟩

end Matches

/-- Things come into being and are called upon alike under both rules, and have the same replies. -/
structure Rules.Simulates (rules : Rules seed order pairing reply kind)
    (others : Rules seed order pairing reply other) (related : kind → other → Prop)
    (admits : seed → Prop) : Prop where
  /-- New things are related, or both are refused. -/
  make : ∀ origin, admits origin →
    Option.Rel related (rules.make origin).1 (others.make origin).1 ∧
      (rules.make origin).2 = (others.make origin).2
  /-- A call leaves related things. -/
  act : ∀ order item twin, related item twin →
    related (rules.act order item).1 (others.act order twin).1 ∧
      (rules.act order item).2 = (others.act order twin).2
  /-- A call with others that are related leaves related things. -/
  join : ∀ pairing item twin partner counterpart, related item twin → related partner counterpart →
    related (rules.join pairing item partner).1 (others.join pairing twin counterpart).1 ∧
      (rules.join pairing item partner).2 = (others.join pairing twin counterpart).2

section Simulates

variable {rules : Rules seed order pairing reply kind}
  {others : Rules seed order pairing reply other} {related : kind → other → Prop}
  {admits : seed → Prop} (simulates : rules.Simulates others related admits)
  {rack : Rack kind} {twins : Rack other}
include simulates

/-- A call does the same to matching racks. -/
theorem Rules.Simulates.call (before : Matches related rack twins) {call : Call seed order pairing}
    (admitted : call.Admits admits) :
    Matches related (rack.call rules call).1 (twins.call others call).1 ∧
      (rack.call rules call).2 = (twins.call others call).2 := by
  -- There is a case for each call, in which what is found before the call is related.
  cases call with
  | create place origin =>
    obtain ⟨made, same⟩ := simulates.make origin admitted
    rw [Rack.call, Rack.call]
    generalize rules.make origin = left, others.make origin = right at made same ⊢
    obtain ⟨item, reply⟩ := left
    obtain ⟨twin, answer⟩ := right
    cases made with
    | none => exact ⟨before, same⟩
    | some held => exact ⟨before.put held place, same⟩
  | copy source target =>
    rw [Rack.call, Rack.call]
    rcases before.cases source with ⟨free, vacant⟩ | ⟨item, twin, present, found, held⟩
    · rw [free, vacant]
      exact ⟨before, rfl⟩
    · rw [present, found]
      exact ⟨before.put held target, rfl⟩
  | act place order =>
    rw [Rack.call, Rack.call]
    rcases before.cases place with ⟨free, vacant⟩ | ⟨item, twin, present, found, held⟩
    · rw [free, vacant]
      exact ⟨before, rfl⟩
    · obtain ⟨left, same⟩ := simulates.act order item twin held
      rw [present, found]
      exact ⟨before.put left place, congrArg some same⟩
  | join target source pairing =>
    rw [Rack.call, Rack.call]
    rcases before.cases target with ⟨free, vacant⟩ | ⟨item, twin, present, found, held⟩
    · rw [free, vacant]
      exact ⟨before, rfl⟩
    · rw [present, found]
      rcases before.cases source with ⟨free, vacant⟩ | ⟨partner, counterpart, there, seen, joined⟩
      · rw [free, vacant]
        exact ⟨before, rfl⟩
      · obtain ⟨left, same⟩ := simulates.join pairing item twin partner counterpart held joined
        rw [there, seen]
        exact ⟨before.put left target, congrArg some same⟩

/-- Calls in a row do the same to matching racks. -/
theorem Rules.Simulates.after (before : Matches related rack twins)
    {calls : List (Call seed order pairing)} (admitted : ∀ call ∈ calls, call.Admits admits) :
    Matches related (rack.after rules calls).1 (twins.after others calls).1 ∧
      (rack.after rules calls).2 = (twins.after others calls).2 := by
  -- The induction goes along the run, and each call hands matching racks on.
  induction calls generalizing rack twins with
  | nil => exact ⟨before, rfl⟩
  | cons call rest ih =>
    obtain ⟨next, reply⟩ := simulates.call before (admitted call List.mem_cons_self)
    obtain ⟨last, replies⟩ := ih next fun other member => admitted other (List.mem_cons_of_mem _ member)
    exact ⟨last, congrArg₂ List.cons reply replies⟩

/-- Runs of the same calls have the same replies and end with matching racks. -/
theorem Rules.Simulates.run {calls : List (Call seed order pairing)}
    (admitted : ∀ call ∈ calls, call.Admits admits) :
    Matches related (Rack.run rules calls).1 (Rack.run others calls).1 ∧
      (Rack.run rules calls).2 = (Rack.run others calls).2 :=
  simulates.after (fun _ => .none) admitted

end Simulates

/-- Any origin will do where none is excluded. -/
theorem Call.admits_true (call : Call seed order pairing) : call.Admits fun _ => True := by
  cases call <;> trivial

/-- What is seen of a rack through a view of each thing. -/
def seen (view : kind → other) (rack : Rack kind) : Rack other := fun place => (rack place).map view

/-- What rules do is seen as what other rules do, and the replies are the same. -/
structure Rules.Follows (rules : Rules seed order pairing reply kind) (view : kind → other)
    (others : Rules seed order pairing reply other) : Prop where
  /-- New things are seen as new. -/
  make : ∀ origin, (rules.make origin).map (Option.map view) id = others.make origin
  /-- Calls on a thing are followed. -/
  act : ∀ order item, (rules.act order item).map view id = others.act order (view item)
  /-- Calls on a thing together with another are followed. -/
  join : ∀ pairing item partner, (rules.join pairing item partner).map view id =
    others.join pairing (view item) (view partner)

section Follows

variable {rules : Rules seed order pairing reply kind} {view : kind → other}
  {others : Rules seed order pairing reply other}

/-- What is seen of a thing may be there in its place. -/
theorem rel_view_iff {item : Option kind} {twin : Option other} :
    Option.Rel (fun item twin => view item = twin) item twin ↔ item.map view = twin := by
  cases item <;> cases twin <;> simp

/-- Rules that are followed simulate what is seen of them. -/
theorem Rules.Follows.simulates (follows : rules.Follows view others) :
    rules.Simulates others (fun item twin => view item = twin) fun _ => True where
  -- A thing is related to what is seen of it.
  make origin _ := by
    rw [← follows.make origin]
    exact ⟨rel_view_iff.2 rfl, rfl⟩
  act order item twin held := by
    rw [← held, ← follows.act order item]
    exact ⟨rfl, rfl⟩
  join pairing item twin partner counterpart held joined := by
    rw [← held, ← joined, ← follows.join pairing item partner]
    exact ⟨rfl, rfl⟩

/-- A run has the replies and ends with the things that are seen of it under the other rules. -/
theorem Rules.Follows.run (follows : rules.Follows view others)
    (calls : List (Call seed order pairing)) :
    (Rack.run rules calls).map (seen view) id = Rack.run others calls := by
  obtain ⟨things, replies⟩ := follows.simulates.run fun call (_ : call ∈ calls) => call.admits_true
  exact Prod.ext (funext fun place => rel_view_iff.1 (things place)) replies

end Follows

/-- All things have a property when they come into being, and no call takes it from them. -/
structure Rules.Keeps (rules : Rules seed order pairing reply kind) (holds : kind → Prop) :
    Prop where
  /-- New things have it. -/
  make : ∀ origin, ∀ item ∈ (rules.make origin).1, holds item
  /-- Things that are called upon keep it. -/
  act : ∀ order item, holds item → holds (rules.act order item).1
  /-- Things that are called upon together with others keep it. -/
  join : ∀ pairing item partner, holds item → holds partner →
    holds (rules.join pairing item partner).1

section Keeps

variable {rules : Rules seed order pairing reply kind} {holds : kind → Prop}

/-- Rules that keep a property simulate themselves on what has it. -/
theorem Rules.Keeps.simulates (keeps : rules.Keeps holds) :
    rules.Simulates rules (fun item twin => item = twin ∧ holds item) fun _ => True where
  -- A thing that has the property is related to itself.
  make origin _ := by
    have made := keeps.make origin
    generalize (rules.make origin).1 = item at made ⊢
    cases item with
    | none => exact ⟨.none, rfl⟩
    | some item => exact ⟨.some ⟨rfl, made item rfl⟩, rfl⟩
  act order item _ held := by
    obtain ⟨rfl, held⟩ := held
    exact ⟨⟨rfl, keeps.act order item held⟩, rfl⟩
  join pairing item _ partner _ held joined := by
    obtain ⟨rfl, held⟩ := held
    obtain ⟨rfl, joined⟩ := joined
    exact ⟨⟨rfl, keeps.join pairing item partner held joined⟩, rfl⟩

/-- A property that is kept is one of everything that a run leaves anywhere. -/
theorem Rules.Keeps.run (keeps : rules.Keeps holds) (calls : List (Call seed order pairing))
    (place : Nat) (item : kind) (present : (Rack.run rules calls).1 place = some item) :
    holds item := by
  -- The run is compared with itself, and what it leaves is related to itself.
  obtain ⟨things, -⟩ := keeps.simulates.run fun call (_ : call ∈ calls) => call.admits_true
  have held := things place
  rw [present] at held
  cases held with
  | some held => exact held.2

end Keeps

end Rack

end NfaInduction
