import Mathlib.Data.List.Forall2

/-! Computations that may fail give a result if all their parts do. -/

namespace NfaInduction

variable {ε α β : Type}

/-- A result without an error is there. -/
theorem exists_of_isOk {outcome : Except ε α} (completes : outcome.isOk) :
    ∃ result, outcome = .ok result := by
  cases outcome with
  | ok result => exact ⟨result, rfl⟩
  | error => cases completes

/-- A result that is bound is there in the end if both parts have one. -/
theorem bind_eq_ok {first : Except ε α} {next : α → Except ε β} {result : β} :
    first >>= next = .ok result ↔ ∃ value, first = .ok value ∧ next value = .ok result := by
  cases first with
  | ok value => simp [Bind.bind, Except.bind]
  | error => simp [Bind.bind, Except.bind]

/-- Behind a result its use goes on. -/
theorem bind_of_ok {first : Except ε α} {next : α → Except ε β} {value : α}
    (found : first = .ok value) : first >>= next = next value := by
  rw [found]
  rfl

/-- Behind a failure nothing goes on. -/
theorem bind_of_error {first : Except ε α} {next : α → Except ε β} {failure : ε}
    (failed : first = .error failure) : first >>= next = .error failure := by
  rw [failed]
  rfl

/-- What is made of a result is there if the result is. -/
theorem map_eq_ok {outcome : Except ε α} {make : α → β} {result : β} :
    outcome.map make = .ok result ↔ ∃ found, outcome = .ok found ∧ make found = result := by
  cases outcome with
  | ok found => simp [Except.map]
  | error => simp [Except.map]

/-- A failure is not changed by what would be made of a result. -/
theorem map_eq_error {outcome : Except ε α} {make : α → β} {failure : ε} :
    outcome.map make = .error failure ↔ outcome = .error failure := by
  cases outcome with
  | ok result => simp [Except.map]
  | error other => simp [Except.map]

/-- A list of results is there if each item has one. -/
theorem mapM_eq_ok {read : α → Except ε β} {items : List α} {results : List β} :
    items.mapM read = .ok results ↔
      List.Forall₂ (fun item result => read item = .ok result) items results := by
  induction items generalizing results with
  | nil =>
    rw [List.mapM_nil, List.forall₂_nil_left_iff]
    constructor
    · intro read
      cases read
      rfl
    · intro none
      subst none
      rfl
  | cons item rest ih =>
    -- The first item has a result, and so have the others.
    rw [List.mapM_cons, bind_eq_ok]
    constructor
    · intro read
      obtain ⟨result, first, read⟩ := read
      obtain ⟨others, later, done⟩ := bind_eq_ok.1 read
      cases done
      exact .cons first (ih.1 later)
    · intro read
      cases read with
      | cons first later => exact ⟨_, first, bind_eq_ok.2 ⟨_, ih.2 later, rfl⟩⟩

/-- Both computations fail the same way, or both give results, which are related. -/
inductive SameOutcome (related : α → β → Prop) : Except ε α → Except ε β → Prop where
  /-- Both give results. -/
  | ok {first : α} {second : β} (held : related first second) :
    SameOutcome related (.ok first) (.ok second)
  /-- Both fail the same way. -/
  | error (failure : ε) : SameOutcome related (.error failure) (.error failure)

/-- What follows from a relation of results relates them as well. -/
theorem SameOutcome.imp {related follows : α → β → Prop} {first : Except ε α} {second : Except ε β}
    (same : SameOutcome related first second)
    (implies : ∀ left right, related left right → follows left right) :
    SameOutcome follows first second := by
  -- There are two outcomes or two failures.
  cases same with
  | ok held => exact .ok (implies _ _ held)
  | error failure => exact .error failure

/-- Computations with the same outcome as a third one have the same outcome. -/
theorem SameOutcome.trans {γ : Type} {related : α → β → Prop} {follows : β → γ → Prop}
    {first : Except ε α} {second : Except ε β} {third : Except ε γ}
    (same : SameOutcome related first second) (again : SameOutcome follows second third) :
    SameOutcome (fun left right => ∃ middle, related left middle ∧ follows middle right) first third := by
  -- The outcome in the middle is a result if the first one is.
  cases same with
  | ok held =>
    cases again with
    | ok after => exact .ok ⟨_, held, after⟩
  | error failure =>
    cases again
    exact .error failure

/-- Two computations have the same outcome whichever of them comes first. -/
theorem SameOutcome.symm {related : α → β → Prop} {first : Except ε α} {second : Except ε β}
    (same : SameOutcome related first second) :
    SameOutcome (fun right left => related left right) second first := by
  cases same with
  | ok held => exact .ok held
  | error failure => exact .error failure

/-- A computation has the same outcome as itself. -/
theorem SameOutcome.refl (outcome : Except ε α) : SameOutcome Eq outcome outcome := by
  cases outcome with
  | ok result => exact .ok rfl
  | error failure => exact .error failure

/-- If one computation gives a result, so does the other one. -/
theorem SameOutcome.exists_of_isOk {related : α → β → Prop} {first : Except ε α}
    {second : Except ε β} (same : SameOutcome related first second) (completes : first.isOk) :
    ∃ left right, first = .ok left ∧ second = .ok right ∧ related left right := by
  cases same with
  | ok held => exact ⟨_, _, rfl, rfl, held⟩
  | error => cases completes

/-- If the first computation gives a result, so does the second one. -/
theorem SameOutcome.exists_of_ok_left {related : α → β → Prop} {result : α} {second : Except ε β}
    (same : SameOutcome related (.ok result) second) :
    ∃ found, second = .ok found ∧ related result found := by
  cases same with
  | ok held => exact ⟨_, rfl, held⟩

/-- If the second computation gives a result, so does the first one. -/
theorem SameOutcome.exists_of_ok_right {related : α → β → Prop} {first : Except ε α} {result : β}
    (same : SameOutcome related first (.ok result)) :
    ∃ found, first = .ok found ∧ related found result := by
  cases same with
  | ok held => exact ⟨_, rfl, held⟩

/-- Outcomes stay the same if what is bound behind them has the same outcomes. -/
theorem SameOutcome.bind {γ δ : Type} {related : α → β → Prop} {follows : γ → δ → Prop}
    {first : Except ε α} {second : Except ε β} {next : α → Except ε γ} {goOn : β → Except ε δ}
    (same : SameOutcome related first second)
    (later : ∀ left right, first = .ok left → related left right →
      SameOutcome follows (next left) (goOn right)) :
    SameOutcome follows (first >>= next) (second >>= goOn) := by
  -- After two results the next parts are compared, and after two failures there are none.
  cases same with
  | ok held => exact later _ _ rfl held
  | error failure => exact .error failure

/-- Outcomes stay the same if what is bound behind one of them leads to a result. -/
theorem SameOutcome.goOn {δ : Type} {related : α → β → Prop} {follows : α → δ → Prop}
    {first : Except ε α} {second : Except ε β} {goOn : β → Except ε δ}
    (same : SameOutcome related first second)
    (later : ∀ left right, related left right → SameOutcome follows (.ok left) (goOn right)) :
    SameOutcome follows first (second >>= goOn) := by
  -- The first outcome is compared with what goes on after the second one.
  cases same with
  | ok held => exact later _ _ held
  | error failure => exact .error failure

end NfaInduction
