import NfaInduction.Random.Source

/-! Sources that produce the same words lead to the same choices, and are used up alike. -/

namespace NfaInduction

namespace WordSource

variable {source twin : Type} [WordSource source] [WordSource twin]

/-- The state after some words have been drawn. -/
def advance (state : source) : Nat → source
  | 0 => state
  | count + 1 => advance (next state).2 count

/-- Words drawn one after the other may be drawn in two parts. -/
theorem advance_advance (state : source) (first later : Nat) :
    advance (advance state first) later = advance state (first + later) := by
  induction first generalizing state with
  | zero => rw [Nat.zero_add, advance]
  | succ first ih => rw [advance, ih, Nat.succ_add, advance]

/-- Two sources produce the same words, and are as patient about each of them. -/
def SameWords (state : source) (other : twin) : Prop :=
  ∀ drawn, (next (advance state drawn)).1 = (next (advance other drawn)).1 ∧
    patience (advance state drawn) = patience (advance other drawn)

/-- A source produces the same words as itself. -/
theorem SameWords.refl (state : source) : SameWords state state := fun _ => ⟨rfl, rfl⟩

variable {state : source} {other : twin}

/-- Sources that produce the same words still do so after some of them. -/
theorem SameWords.advance (same : SameWords state other) (count : Nat) :
    SameWords (advance state count) (advance other count) := by
  intro drawn
  rw [advance_advance, advance_advance]
  exact same (count + drawn)

/-- The same came of two sources, and as many words were drawn from each of them. -/
structure SameDraw {α : Type} (state : source) (other : twin) (result : α × source)
    (again : α × twin) : Prop where
  /-- The same came of it. -/
  value : result.1 = again.1
  /-- As many words were drawn. -/
  drawn : ∃ count, result.2 = WordSource.advance state count ∧
    again.2 = WordSource.advance other count

/-- Nothing needs to be drawn for what is known already. -/
theorem SameDraw.known {α : Type} (state : source) (other : twin) (value : α) :
    SameDraw state other (value, state) (value, other) :=
  ⟨rfl, 0, rfl, rfl⟩

/-- What comes of two sources later came of them from the beginning. -/
theorem SameDraw.andThen {α β : Type} {first : α × source} {firstAgain : α × twin}
    {later : β × source} {laterAgain : β × twin} (before : SameDraw state other first firstAgain)
    (after : SameDraw first.2 firstAgain.2 later laterAgain) :
    SameDraw state other later laterAgain := by
  -- The words taken by two draws are those of the first and then those of the second.
  obtain ⟨one, left, right⟩ := before.drawn
  obtain ⟨two, leftLater, rightLater⟩ := after.drawn
  refine ⟨after.value, one + two, ?_, ?_⟩
  · rw [leftLater, left, advance_advance]
  · rw [rightLater, right, advance_advance]

/-- After the same draws, two sources go on to produce the same words. -/
theorem SameDraw.sameWords {α : Type} {result : α × source} {again : α × twin}
    (draw : SameDraw state other result again) (same : SameWords state other) :
    SameWords result.2 again.2 := by
  obtain ⟨count, left, right⟩ := draw.drawn
  rw [left, right]
  exact same.advance count

/-- The same words lead to the same number. -/
theorem SameWords.drawWithin (same : SameWords state other) (range patience : Nat) :
    SameDraw state other (drawWithin range patience state) (drawWithin range patience other) := by
  have first : (next state).1 = (next other).1 := (same 0).1
  induction patience generalizing state other with
  | zero =>
    -- The word is taken as it is.
    refine ⟨?_, 1, rfl, rfl⟩
    simp only [WordSource.drawWithin, first]
  | succ patience ih =>
    simp only [WordSource.drawWithin, first]
    split
    · exact ⟨rfl, 1, rfl, rfl⟩
    · -- The first word is rejected, and both sources are asked for the next one.
      have rejected : SameDraw state other ((), (next state).2) ((), (next other).2) :=
        ⟨rfl, 1, rfl, rfl⟩
      have later := rejected.sameWords same
      exact rejected.andThen (ih later (later 0).1)

/-- The same words lead to the same number, whatever patience there is. -/
theorem SameWords.draw (same : SameWords state other) (range : Nat) :
    SameDraw state other (draw range state) (draw range other) := by
  rw [WordSource.draw, WordSource.draw, show patience state = patience other from (same 0).2]
  exact same.drawWithin range _

/-- The same words lead to the same exchanges. -/
theorem SameWords.shuffleFrom {α : Type} (same : SameWords state other) (last : Nat)
    (items : Array α) :
    SameDraw state other (shuffleFrom last items state) (shuffleFrom last items other) := by
  induction last generalizing items state other with
  | zero => exact .known state other items
  | succ last ih =>
    have chosen := same.draw (last + 2)
    let exchanged := items.swapIfInBounds (last + 1) (WordSource.draw (last + 2) state).1
    -- The exchange is the same, since the number is.
    have again : WordSource.shuffleFrom (last + 1) items other =
        WordSource.shuffleFrom last exchanged (WordSource.draw (last + 2) other).2 := by
      simp only [exchanged, chosen.value]
      rfl
    rw [again]
    exact chosen.andThen (ih (chosen.sameWords same) exchanged)

/-- The same words lead to the same order. -/
theorem SameWords.shuffle {α : Type} (same : SameWords state other) (items : List α) :
    SameDraw state other (shuffle items state) (shuffle items other) := by
  have exchanged := same.shuffleFrom (items.length - 1) items.toArray
  exact ⟨congrArg Array.toList exchanged.value, exchanged.drawn⟩

end WordSource

end NfaInduction
