import NfaInduction.Proofs.Automaton.Merge
import NfaInduction.Proofs.Training.Pick

/-! A search picks the first of the best partners that absorb a state safely, if there is any. -/

namespace NfaInduction

namespace Training

variable {automaton : Automaton} {plain : PlainAutomaton} {negatives remaining : List Sample}
  {state : Nat}

/-- A partner absorbs a state without a negative sample being accepted. -/
structure Absorbs (plain : PlainAutomaton) (negatives : List Sample) (state : Nat)
    (earlier : List Nat) (choice : Choice) : Prop where
  /-- The partner is one of the earlier states. -/
  member : choice.partner.state ∈ earlier
  /-- The merged automaton is kept with the partner. -/
  represents : choice.merged.Represents (plain.merge choice.partner.state state)
  /-- No negative sample is accepted. -/
  safe : ¬plain.Unsafe negatives choice.partner.state state

/-- What is known after a search: a partner, or that every earlier state was tried in vain. -/
def Resolves (plain : PlainAutomaton) (negatives : List Sample) (state : Nat)
    (earlier : List Nat) : Option Choice → Prop
  | none => ∀ candidate ∈ earlier, plain.Unsafe negatives candidate state
  | some choice => Absorbs plain negatives state earlier choice

section Search

variable (represents : automaton.Represents plain) (stateIn : state ∈ plain.active)
include represents stateIn

/-- A pick says what becomes of the state. -/
theorem Picks.resolves {score : Nat → Option Nat} {earlier : List Nat} {best : Option Choice}
    (picks : Picks automaton plain negatives state score earlier best)
    (candidates : ∀ candidate ∈ earlier, candidate ∈ plain.active ∧ candidate ≠ state) :
    Resolves plain negatives state earlier best := by
  -- The choice is a candidate, and a candidate's merge has only one result.
  cases best with
  | none => exact picks
  | some choice =>
    obtain ⟨before, after, rfl, picked⟩ := picks
    have member : choice.partner.state ∈ before ++ choice.partner.state :: after := by simp
    obtain ⟨active, distinct⟩ := candidates _ member
    obtain ⟨merged, done, result⟩ := represents.merge_eq_done active stateIn distinct
    cases picked.merged.symm.trans done
    exact ⟨member, result, picked.safe⟩

variable (negativesWithin : ∀ negative ∈ negatives, negative.Within plain.alphabetSize)
include negativesWithin

/-- A merge is tried on the automaton, and the negative samples decide about it. -/
theorem safeMerge?_eq_ok {earlier : Nat} (earlierIn : earlier ∈ plain.active)
    (distinct : earlier ≠ state) :
    (safeMerge? negatives automaton state earlier = .ok none ∧
      plain.Unsafe negatives earlier state) ∨
    ∃ merged, safeMerge? negatives automaton state earlier = .ok (some merged) ∧
      automaton.merge earlier state = .done merged ∧
      merged.Represents (plain.merge earlier state) ∧ ¬plain.Unsafe negatives earlier state := by
  -- The merge goes through, so the verdict on the negatives alone decides.
  obtain ⟨merged, done, result⟩ := represents.merge_eq_done earlierIn stateIn distinct
  rw [safeMerge?, done]
  simp only [Edit.done, Edit.toExcept, Bind.bind, Except.bind, result.acceptsAny negativesWithin]
  by_cases danger : ∃ word ∈ negatives, (plain.merge earlier state).Accepts word
  · exact .inl ⟨by simp [danger, Pure.pure, Except.pure], danger⟩
  · exact .inr ⟨merged, by simp [danger, Pure.pure, Except.pure], rfl, result, danger⟩

/-- The first search picks the first safe candidate. -/
theorem firstPartner_picks {passed earlier : List Nat}
    (before : Picks automaton plain negatives state (plain.score remaining state true) passed none)
    (candidates : ∀ candidate ∈ earlier, candidate ∈ plain.active ∧ candidate ≠ state) :
    ∃ choice, firstPartner negatives automaton state passed.length earlier = .ok choice ∧
      Picks automaton plain negatives state (plain.score remaining state true) (passed ++ earlier)
        choice := by
  -- The induction goes on as long as all candidates passed so far are unsafe.
  induction earlier generalizing passed with
  | nil => exact ⟨none, rfl, by rwa [List.append_nil]⟩
  | cons candidate rest hypothesis =>
    obtain ⟨⟨candidateIn, distinct⟩, others⟩ := List.forall_mem_cons.1 candidates
    rw [firstPartner, List.append_cons]
    rcases safeMerge?_eq_ok represents stateIn negativesWithin candidateIn distinct with
      ⟨refused, danger⟩ | ⟨merged, tried, done, _, safe⟩
    · have later := hypothesis (before.concat_unsafe danger) others
      rw [List.length_append] at later
      rw [refused]
      exact later
    · have picks : Picks automaton plain negatives state (plain.score remaining state true)
          (passed ++ [candidate]) (some ⟨⟨passed.length, candidate, none⟩, merged⟩) :=
        picks_concat done safe fun other member safe => absurd (before other member) safe
      rw [tried]
      -- Without scores no candidate behind it is better.
      exact ⟨_, rfl, picks.append fun _ _ _ => Nat.le_refl _⟩

/-- The full search picks the first of the safe candidates with the most remaining samples. -/
theorem bestPartner_picks
    (remainingWithin : ∀ sample ∈ remaining, sample.Within plain.alphabetSize)
    {passed earlier : List Nat} {best : Option Choice}
    (before : Picks automaton plain negatives state (plain.score remaining state false) passed best)
    (candidates : ∀ candidate ∈ earlier, candidate ∈ plain.active ∧ candidate ≠ state) :
    ∃ found, bestPartner negatives remaining automaton state passed.length best earlier = .ok found ∧
      Picks automaton plain negatives state (plain.score remaining state false)
        (passed ++ earlier) found.choice := by
  -- The induction carries what is picked among the candidates passed so far.
  induction earlier generalizing passed best with
  | nil => exact ⟨_, rfl, by rwa [List.append_nil]⟩
  | cons candidate rest hypothesis =>
    obtain ⟨⟨candidateIn, distinct⟩, others⟩ := List.forall_mem_cons.1 candidates
    rw [bestPartner, List.append_cons]
    rcases safeMerge?_eq_ok represents stateIn negativesWithin candidateIn distinct with
      ⟨refused, danger⟩ | ⟨merged, tried, done, result, safe⟩
    · have later := hypothesis (before.concat_unsafe danger) others
      rw [List.length_append] at later
      rw [refused]
      exact later
    · have later := hypothesis (before.concat_safe done safe) others
      rw [List.length_append] at later
      obtain ⟨found, searched, picks⟩ := later
      let partner : Partner :=
        ⟨passed.length, candidate, some ((plain.merge candidate state).acceptedCount remaining)⟩
      refine ⟨{ found with counted := partner :: found.counted }, ?_, picks⟩
      rw [bind_of_ok tried]
      exact (bind_of_ok (result.acceptedCount remainingWithin)).trans (bind_of_ok searched)

/-- Either search picks the first of the safe candidates that score best. -/
theorem search_picks (remainingWithin : ∀ sample ∈ remaining, sample.Within plain.alphabetSize)
    (skipBestSearch : Bool) {earlier : List Nat}
    (candidates : ∀ candidate ∈ earlier, candidate ∈ plain.active ∧ candidate ≠ state) :
    ∃ found, search skipBestSearch negatives remaining automaton state earlier = .ok found ∧
      Picks automaton plain negatives state (plain.score remaining state skipBestSearch) earlier
        found.choice := by
  -- The first safe partner wins when scores are not looked at, the best one otherwise.
  have nothing : ∀ score, Picks automaton plain negatives state score [] none :=
    fun _ _ member => absurd member List.not_mem_nil
  rw [search_eq]
  cases skipBestSearch with
  | true =>
    obtain ⟨choice, found, picks⟩ :=
      firstPartner_picks represents stateIn negativesWithin (nothing _) candidates
    exact ⟨_, (if_pos rfl).trans (bind_of_ok found), picks⟩
  | false =>
    obtain ⟨found, searched, picks⟩ :=
      bestPartner_picks represents stateIn negativesWithin remainingWithin (nothing _) candidates
    exact ⟨found, (if_neg Bool.false_ne_true).trans searched, picks⟩

/-- Either search ends with a partner or has tried every earlier state. -/
theorem search_resolves (remainingWithin : ∀ sample ∈ remaining, sample.Within plain.alphabetSize)
    (skipBestSearch : Bool) {earlier : List Nat}
    (candidates : ∀ candidate ∈ earlier, candidate ∈ plain.active ∧ candidate ≠ state) :
    ∃ found, search skipBestSearch negatives remaining automaton state earlier = .ok found ∧
      Resolves plain negatives state earlier found.choice := by
  obtain ⟨found, searched, picks⟩ := search_picks represents stateIn negativesWithin
    remainingWithin skipBestSearch candidates
  exact ⟨found, searched, picks.resolves represents stateIn candidates⟩

end Search

section Placed

/-- A partner stands among some states where its position says. -/
def Partner.Placed (partner : Partner) (states : List Nat) : Prop :=
  states[partner.position]? = some partner.state

/-- A candidate stands behind those that were passed. -/
theorem Partner.placed_append (passed rest : List Nat) (candidate : Nat) (score : Option Nat) :
    Partner.Placed ⟨passed.length, candidate, score⟩ (passed ++ candidate :: rest) := by
  simp [Placed]

/-- The first partner is named by its place. -/
theorem firstPartner_placed {passed earlier : List Nat} {choice : Choice}
    (found : firstPartner negatives automaton state passed.length earlier = .ok (some choice)) :
    choice.partner.Placed (passed ++ earlier) := by
  induction earlier generalizing passed with
  | nil => cases found
  | cons candidate rest ih =>
    rw [firstPartner] at found
    obtain ⟨outcome, _, found⟩ := bind_eq_ok.1 found
    cases outcome with
    | none =>
      -- The search goes on behind the candidate.
      rw [List.append_cons]
      refine ih ?_
      rwa [List.length_append]
    | some merged =>
      cases found
      exact Partner.placed_append passed rest candidate none

/-- The best partner and all that were counted are named by their places. -/
theorem bestPartner_placed {passed earlier : List Nat} {best : Option Choice} {found : Findings}
    (before : ∀ choice ∈ best, choice.partner.Placed (passed ++ earlier))
    (searched : bestPartner negatives remaining automaton state passed.length best earlier = .ok found) :
    (∀ choice ∈ found.choice, choice.partner.Placed (passed ++ earlier)) ∧
      ∀ partner ∈ found.counted, partner.Placed (passed ++ earlier) := by
  -- The candidates passed so far are what the place is counted from.
  induction earlier generalizing passed best found with
  | nil =>
    cases searched
    exact ⟨before, fun partner member => nomatch member⟩
  | cons candidate rest ih =>
    rw [bestPartner] at searched
    rw [List.append_cons] at before ⊢
    have later : (passed ++ [candidate]).length = passed.length + 1 := List.length_append
    obtain ⟨outcome, _, searched⟩ := bind_eq_ok.1 searched
    cases outcome with
    | none =>
      refine ih before ?_
      rwa [later]
    | some merged =>
      obtain ⟨score, _, searched⟩ := bind_eq_ok.1 searched
      obtain ⟨findings, next, done⟩ := bind_eq_ok.1 searched
      cases done
      let partner : Partner := ⟨passed.length, candidate, some score⟩
      have placed : partner.Placed (passed ++ [candidate] ++ rest) := by
        rw [← List.append_cons]
        exact Partner.placed_append passed rest candidate (some score)
      -- Whether the candidate or the one before it is kept, its place is known.
      have kept : ∀ choice ∈
          if improves score (best.map (·.partner)) then some ⟨partner, merged⟩ else best,
          choice.partner.Placed (passed ++ [candidate] ++ rest) := by
        intro choice member
        split at member
        · cases member
          exact placed
        · exact before choice member
      rw [← later] at next
      obtain ⟨chosen, others⟩ := ih kept next
      exact ⟨chosen, List.forall_mem_cons.2 ⟨placed, others⟩⟩

/-- Whatever partners a search names, they stand where their positions say. -/
theorem search_placed {skipBestSearch : Bool} {earlier : List Nat} {found : Findings}
    (searched : search skipBestSearch negatives remaining automaton state earlier = .ok found) :
    ∀ partner ∈ found.counted ++ (found.choice.map (·.partner)).toList, partner.Placed earlier := by
  -- Both searches name each partner together with its place in the list.
  rw [search_eq] at searched
  cases skipBestSearch with
  | true =>
    rw [if_pos rfl] at searched
    obtain ⟨choice, first, done⟩ := bind_eq_ok.1 searched
    cases done
    cases choice with
    | none => exact fun partner member => nomatch member
    | some choice =>
      intro partner member
      rw [List.mem_singleton.1 member]
      exact @firstPartner_placed _ _ _ [] _ _ first
  | false =>
    rw [if_neg Bool.false_ne_true] at searched
    have nothing : ∀ choice ∈ (none : Option Choice), choice.partner.Placed ([] ++ earlier) := by simp
    obtain ⟨chosen, others⟩ := bestPartner_placed nothing searched
    intro partner member
    rcases List.mem_append.1 member with counted | named
    · exact others partner counted
    · obtain ⟨choice, kept, rfl⟩ := Option.mem_map.1 (Option.mem_toList.1 named)
      exact chosen choice kept

end Placed

end Training

end NfaInduction
