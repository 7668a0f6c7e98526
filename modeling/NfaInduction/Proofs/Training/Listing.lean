import NfaInduction.Proofs.Random.SameWords
import NfaInduction.Proofs.Sample.Order
import NfaInduction.Proofs.Training.Outcome

/-! It does not matter for training how the samples are listed. -/

namespace NfaInduction

namespace Training

variable {automaton : Automaton} {plain : PlainAutomaton} {negatives listed remaining : List Sample}

section Search

variable (represents : automaton.Represents plain)
  (negativesWithin : ∀ negative ∈ negatives, negative.Within plain.alphabetSize)
  (same : ∀ sample, sample ∈ listed ↔ sample ∈ negatives)
include represents negativesWithin same

/-- Whether some sample is accepted does not depend on how the samples are listed. -/
theorem acceptsAny_of_mem_iff : automaton.acceptsAny listed = automaton.acceptsAny negatives := by
  have listedWithin : ∀ sample ∈ listed, sample.Within plain.alphabetSize :=
    fun sample member => negativesWithin sample ((same sample).1 member)
  rw [represents.acceptsAny negativesWithin, represents.acceptsAny listedWithin]
  -- An accepted sample is in both lists or in none.
  refine congrArg Except.ok (decide_eq_decide.2 ?_)
  exact exists_congr fun sample => and_congr (same sample) Iff.rfl

variable {state : Nat} (stateIn : state ∈ plain.active)
include stateIn

/-- Whether a merge is safe does not depend on how the negative samples are listed. -/
theorem safeMerge?_of_mem_iff {earlier : Nat} (earlierIn : earlier ∈ plain.active)
    (distinct : earlier ≠ state) :
    safeMerge? listed automaton state earlier = safeMerge? negatives automaton state earlier := by
  obtain ⟨merged, done, result⟩ := represents.merge_eq_done earlierIn stateIn distinct
  rw [safeMerge?, safeMerge?, done]
  simp only [Edit.done, Edit.toExcept, Bind.bind, Except.bind,
    acceptsAny_of_mem_iff result negativesWithin same]

/-- Which partner is the first does not depend on how the negative samples are listed. -/
theorem firstPartner_of_mem_iff {earlier : List Nat} (position : Nat)
    (candidates : ∀ candidate ∈ earlier, candidate ∈ plain.active ∧ candidate ≠ state) :
    firstPartner listed automaton state position earlier =
      firstPartner negatives automaton state position earlier := by
  induction earlier generalizing position with
  | nil => rfl
  | cons candidate rest ih =>
    obtain ⟨⟨candidateIn, distinct⟩, others⟩ := List.forall_mem_cons.1 candidates
    -- The same is tried with the candidate, and the others follow.
    rw [firstPartner, firstPartner,
      safeMerge?_of_mem_iff represents negativesWithin same stateIn candidateIn distinct]
    simp only [ih (position + 1) others]

/-- Which partner is the best does not depend on how the negative samples are listed. -/
theorem bestPartner_of_mem_iff {earlier : List Nat} (position : Nat) (best : Option Choice)
    (candidates : ∀ candidate ∈ earlier, candidate ∈ plain.active ∧ candidate ≠ state) :
    bestPartner listed remaining automaton state position best earlier =
      bestPartner negatives remaining automaton state position best earlier := by
  induction earlier generalizing position best with
  | nil => rfl
  | cons candidate rest ih =>
    obtain ⟨⟨candidateIn, distinct⟩, others⟩ := List.forall_mem_cons.1 candidates
    -- Both count the same remaining samples for its score.
    rw [bestPartner, bestPartner,
      safeMerge?_of_mem_iff represents negativesWithin same stateIn candidateIn distinct]
    simp only [ih (position + 1) _ others]

/-- What a search finds does not depend on how the negative samples are listed. -/
theorem search_of_mem_iff (skipBestSearch : Bool) {earlier : List Nat}
    (candidates : ∀ candidate ∈ earlier, candidate ∈ plain.active ∧ candidate ≠ state) :
    search skipBestSearch listed remaining automaton state earlier =
      search skipBestSearch negatives remaining automaton state earlier := by
  rw [search_eq, search_eq, firstPartner_of_mem_iff represents negativesWithin same stateIn 0 candidates,
    bestPartner_of_mem_iff represents negativesWithin same stateIn 0 none candidates]

end Search

section SettleState

variable {settings others : Settings}

/-- Two settings agree in what decides about merges. -/
structure Settings.Agree (settings others : Settings) : Prop where
  /-- Both take the first partner, or both search for the best one. -/
  skipBestSearch : settings.skipBestSearch = others.skipBestSearch
  /-- Both examine new states in the order of their path, or both in a random one. -/
  deterministic : settings.deterministic = others.deterministic

variable {settling : SettleState} (agree : settings.Agree others) (sound : settling.Sound negatives plain)
  (negativesWithin : ∀ negative ∈ negatives, negative.Within plain.alphabetSize)
  (same : ∀ sample, sample ∈ listed ↔ sample ∈ negatives)
include agree

/-- What becomes of a settlement depends on nothing else in the settings. -/
theorem SettleState.resolve_of_agree (state : Nat) (waiting : List Nat) (choice : Option Choice) :
    settling.resolve settings state waiting choice = settling.resolve others state waiting choice := by
  -- The order of the waiting states changes in one mode only.
  cases choice with
  | none => rfl
  | some choice => simp only [resolve, agree.deterministic]

include sound negativesWithin same

/-- A turn does not depend on how the negative samples are listed. -/
theorem SettleState.Sound.turn_of_mem_iff :
    settling.turn settings listed remaining = settling.turn others negatives remaining := by
  cases pending : settling.pending with
  | nil => simp only [SettleState.turn, pending]
  | cons state waiting =>
    -- The settlement is sound, so that every merge that is tried can be made.
    obtain ⟨stateIn, candidates⟩ := sound.candidates pending
    simp only [SettleState.turn, pending, settling.resolve_of_agree agree, agree.skipBestSearch,
      search_of_mem_iff sound.represents negativesWithin same stateIn others.skipBestSearch candidates]

/-- Settling does not depend on how the negative samples are listed. -/
theorem SettleState.Sound.settle_of_mem_iff
    (remainingWithin : ∀ sample ∈ remaining, sample.Within plain.alphabetSize) :
    Training.settle settings listed remaining settling.hypothesis settling.states settling.pending =
      Training.settle others negatives remaining settling.hypothesis settling.states settling.pending := by
  obtain ⟨settlement, settled, _⟩ := sound.settle negativesWithin remainingWithin others
  have turns : ∀ later examination next, settling.Reaches others negatives remaining later →
      later.turn others negatives remaining = .ok (some (examination, next)) →
      ∃ again, later.turn settings listed remaining = .ok (some (again, next)) ∧
        id again = id examination := by
    intro later examination next reached done
    -- The settlement is sound all the way, and so each turn is the same.
    obtain ⟨change, after⟩ := sound.reaches negativesWithin remainingWithin others reached
    exact ⟨examination, (after.turn_of_mem_iff agree negativesWithin same).trans done, rfl⟩
  obtain ⟨examinations, again, alike⟩ := SettleState.settle_lockstep turns settled
  rw [List.map_id, List.map_id] at alike
  rw [again, settled, alike]

end SettleState

open WordSource (SameWords SameDraw advance)

variable {source twin : Type} [WordSource source] [WordSource twin]

namespace Session

/-- What steps in a row tell, and the session after them. -/
def records (session : Session source) :
    Nat → Except Fault (List (Option StepReport) × Session source)
  | 0 => .ok ([], session)
  | count + 1 => do
    let (report, session) ← session.step
    let (later, session) ← session.records count
    return (report :: later, session)

/-- New states are put in the same order with the same words, or with none of them. -/
theorem sameDraw_arrange {random : source} {other : twin} {session : Session source}
    {again : Session twin}
    (mode : again.settings.deterministic = session.settings.deterministic)
    (words : SameWords random other ∨ session.settings.deterministic)
    (before : SameDraw random other ((), session.random) ((), again.random)) (states : List Nat) :
    SameDraw random other (session.arrange states) (again.arrange states) := by
  rw [arrange, arrange, mode]
  by_cases inOrder : session.settings.deterministic
  · rw [if_pos inOrder, if_pos inOrder]
    exact ⟨rfl, before.drawn⟩
  · -- Words are drawn on top of those drawn before.
    rw [if_neg inOrder, if_neg inOrder]
    exact before.andThen ((before.sameWords (words.resolve_right inOrder)).shuffle states)

/-- Two sessions agree but for the way their negative samples are listed, and drew as many words. -/
structure Alike (random : source) (other : twin) (session : Session source) (again : Session twin) :
    Prop where
  /-- They are trained alike. -/
  agree : again.settings.Agree session.settings
  /-- Their samples are over one alphabet. -/
  alphabet : again.samples.alphabetSize = session.samples.alphabetSize
  /-- They learn the same samples in the same order. -/
  positives : again.samples.positives = session.samples.positives
  /-- They have the same negative samples. -/
  negatives : ∀ sample, sample ∈ again.samples.negatives ↔ sample ∈ session.samples.negatives
  /-- They have processed as many samples. -/
  processed : again.processed = session.processed
  /-- They have learnt the same automaton, down to its slots. -/
  hypothesis : again.hypothesis = session.hypothesis
  /-- They search its states in the same order. -/
  states : again.states = session.states
  /-- They have drawn as many words. -/
  drawn : ∃ count, session.random = advance random count ∧ again.random = advance other count

/-- Two outcomes tell the same, and the sessions after them are alike. -/
abbrev SameRun {report : Type} (random : source) (other : twin)
    (result : report × Session source) (again : report × Session twin) : Prop :=
  result.1 = again.1 ∧ Alike random other result.2 again.2

section Alike

variable {random : source} {other : twin} {session : Session source} {again : Session twin}
  (words : SameWords random other) (alike : Alike random other session again)
include words alike

/-- New states are examined in the same order, and as many words are drawn for it. -/
theorem Alike.arrange (states : List Nat) :
    (again.arrange states).1 = (session.arrange states).1 ∧
      ∃ count, (session.arrange states).2 = advance random count ∧
        (again.arrange states).2 = advance other count := by
  have before : SameDraw random other ((), session.random) ((), again.random) := ⟨rfl, alike.drawn⟩
  have after := sameDraw_arrange alike.agree.deterministic (.inl words) before states
  exact ⟨after.value.symm, after.drawn⟩

variable {count : Nat} {plain : PlainAutomaton} (learnt : session.Learnt count plain)
include learnt

/-- Sessions that are alike learn a sample alike. -/
theorem Alike.learn {sample : Sample} {remaining : List Sample}
    (next : session.samples.positives.drop session.processed = sample :: remaining) :
    SameOutcome (SameRun random other) (session.learn sample remaining)
      (again.learn sample remaining) := by
  rw [Session.learn, Session.learn, alike.hypothesis]
  cases coerced : coerce session.hypothesis sample with
  | error fault => exact .error fault
  | ok path =>
    obtain ⟨grown, spells, sound⟩ := learnt.settling next coerced
    obtain ⟨_, _, remainingWithin⟩ := learnt.next_positive next
    obtain ⟨arranged, drawn⟩ := alike.arrange words path.states
    -- Both settle the same states, whichever way the negative samples are listed.
    have settled := sound.settle_of_mem_iff alike.agree (spells.alphabet ▸ learnt.within.2)
      alike.negatives (spells.alphabet ▸ remainingWithin)
    simp only [Session.settling] at settled
    simp only [Bind.bind, Except.bind, arranged, alike.states, settled]
    cases settle session.settings session.samples.negatives remaining path.automaton session.states
        (session.arrange path.states).1 with
    | error fault => exact .error fault
    | ok settlement =>
      refine .ok ⟨?_, ?_⟩
      · simp only [alike.processed]
      · exact { alike with
          processed := congrArg (· + 1) alike.processed
          hypothesis := rfl
          states := rfl
          drawn := drawn }

/-- Sessions that are alike take a step alike. -/
theorem Alike.step : SameOutcome (SameRun random other) session.step again.step := by
  rw [Session.step, Session.step, alike.positives, alike.processed, alike.hypothesis]
  cases next : session.samples.positives.drop session.processed with
  | nil => exact .ok ⟨rfl, alike⟩
  | cons sample remaining =>
    -- Both ask the same automaton about the same sample.
    refine (SameOutcome.refl (session.hypothesis.isMatch sample)).bind fun accepted again _ same => ?_
    subst same
    cases accepted with
    | true => exact .ok ⟨rfl, { alike with processed := rfl, hypothesis := rfl }⟩
    | false =>
      exact (alike.learn words learnt next).bind fun result again _ same =>
        .ok ⟨congrArg some same.1, same.2⟩

/-- Sessions that are alike take any number of steps alike. -/
theorem Alike.records (steps : Nat) :
    SameOutcome (SameRun random other) (session.records steps) (again.records steps) := by
  induction steps generalizing session again count plain with
  | zero => exact .ok ⟨rfl, alike⟩
  | succ steps ih =>
    refine (alike.step words learnt).bind fun result repeated stepped same => ?_
    obtain ⟨told, alikeAfter⟩ := same
    -- What has been learnt is what the next step relies on.
    rcases learnt.step with ⟨report, after, later, done, _, kept⟩ | ⟨fault, failed, _⟩
    · cases stepped.symm.trans done
      exact (ih alikeAfter kept).bind fun recorded again _ same =>
        .ok ⟨congrArg₂ List.cons told same.1, same.2⟩
    · cases stepped.symm.trans failed

end Alike

section Start

variable {samples relisted : SampleSet} {settings others : Settings}
  (alphabet : relisted.alphabetSize = samples.alphabetSize)
  (positives : relisted.positives.Perm samples.positives)
  (same : ∀ sample, sample ∈ relisted.negatives ↔ sample ∈ samples.negatives)
  (agree : others.Agree settings)
include alphabet positives same agree

/-- Runs on the same samples start alike, or are refused because of the same sample. -/
theorem start_alike (random : source) (other : twin) :
    SameOutcome (fun session again => Alike random other session again ∧
        session.Learnt 0 (.empty samples.alphabetSize))
      (start settings samples random) (start others relisted other) := by
  -- Both listings have the same samples in both lists, and so the same conflict.
  have conflicts : relisted.sort.conflict? = samples.sort.conflict? :=
    SampleSet.conflict?_sort_eq (fun _ => positives.mem_iff) same
  have least := samples.conflict?_sort_spec
  cases found : samples.sort.conflict? with
  | some sample =>
    simp only [start_eq, ofSorted, unlessConflicting, conflicts, found]
    exact .error _
  | none =>
    rw [found] at least
    -- Without a conflict both start with an automaton over the same alphabet, if there is one.
    have disjoint : ∀ sample ∈ relisted.positives, sample ∉ relisted.negatives :=
      fun sample positive negative =>
        least sample (positives.mem_iff.1 positive) ((same sample).1 negative)
    have started := start_of_disjoint least settings random
    have again := start_of_disjoint disjoint others other
    rw [alphabet] at again
    cases built : Automaton.ofAlphabet samples.alphabetSize with
    | error fault =>
      rw [built] at started again
      rw [started, again]
      exact .error _
    | ok hypothesis =>
      rw [built] at started again
      rcases start_learnt least settings random with ⟨_, begun, _, learnt⟩ | ⟨_, failed, _⟩
      · cases begun.symm.trans started
        rw [started, again]
        refine .ok ⟨?_, learnt⟩
        exact {
          agree := agree
          alphabet := alphabet
          positives := SampleSet.positives_sort_eq positives
          negatives := fun sample => SampleSet.mem_negatives_sort.trans
            ((same sample).trans SampleSet.mem_negatives_sort.symm)
          processed := rfl
          hypothesis := rfl
          states := rfl
          drawn := ⟨0, rfl, rfl⟩ }
      · cases failed.symm.trans started

end Start

end Session

/-- Runs with the same words on the same samples tell the same, whichever way these are listed. -/
theorem records_relisted {samples relisted : SampleSet}
    (alphabet : relisted.alphabetSize = samples.alphabetSize)
    (positives : relisted.positives.Perm samples.positives)
    (negatives : ∀ sample, sample ∈ relisted.negatives ↔ sample ∈ samples.negatives)
    (settings : Settings) {random : source} {other : twin} (words : SameWords random other) :
    -- Both are refused because of the same sample, or else any number of steps go the same way.
    SameOutcome
      (fun session again => ∀ steps,
        SameOutcome (Session.SameRun random other) (session.records steps) (again.records steps))
      (Session.start settings samples random) (Session.start settings relisted other) := by
  have started := Session.start_alike alphabet positives negatives
    (⟨rfl, rfl⟩ : settings.Agree settings) random other
  refine started.imp fun session again begun steps => ?_
  obtain ⟨alike, learnt⟩ := begun
  exact alike.records words learnt steps

/-- The same samples, listed the other way around, with a negative one listed twice. -/
def squareRelisted : SampleSet where
  alphabetSize := 2
  positives := [[1], [0, 1]]
  negatives := [[0], [], [0]]
  positives_within := within_of_all rfl
  negatives_within := within_of_all rfl

/-- Both listings can be trained, and every number of steps on them tells the same. -/
theorem records_relisted_square : ∃ session again,
    Session.start {} sampleSquare (WordCycle.ofList [7]) = .ok session ∧
      Session.start {} squareRelisted (WordCycle.ofList [7]) = .ok again ∧
      ∀ steps, SameOutcome (Session.SameRun (WordCycle.ofList [7]) (WordCycle.ofList [7]))
        (session.records steps) (again.records steps) := by
  -- The second listing reverses the samples and names a negative twice.
  have alphabet : squareRelisted.alphabetSize = sampleSquare.alphabetSize := rfl
  have positives : squareRelisted.positives.Perm sampleSquare.positives := by decide
  have negatives : ∀ sample, sample ∈ squareRelisted.negatives ↔ sample ∈ sampleSquare.negatives := by
    intro sample
    simp only [squareRelisted, sampleSquare, List.mem_cons, List.not_mem_nil, or_false]
    tauto
  have same := records_relisted alphabet positives negatives {} (SameWords.refl (WordCycle.ofList [7]))
  have completes : (Session.start {} sampleSquare (WordCycle.ofList [7])).isOk := by
    rw [start_square]
    rfl
  exact same.exists_of_isOk completes

end Training

end NfaInduction
