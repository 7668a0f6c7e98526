import NfaInduction.Proofs.Random.SameWords
import NfaInduction.Proofs.Training.Outcome

/-! Where all remaining samples are accepted, the first partner is as good as any, and is the best. -/

namespace NfaInduction

open scoped Classical in
/-- A merge loses none of the words that were accepted, and so it counts all of them. -/
theorem PlainAutomaton.acceptedCount_merge {plain : PlainAutomaton} {words : List Sample}
    (accepted : ∀ word ∈ words, plain.Accepts word) (kept absorbed : Nat) :
    (plain.merge kept absorbed).acceptedCount words = words.length := by
  rw [acceptedCount, List.countP_eq_length]
  intro word member
  exact decide_eq_true ((accepted word member).merge kept absorbed)

namespace Training

open Automaton (Outgrown)

/-- The settings with the first partner or the best one taken. -/
def Settings.searching (settings : Settings) (skipBestSearch : Bool) : Settings :=
  { settings with skipBestSearch }

section Accepted

variable {plain : PlainAutomaton} {negatives remaining : List Sample}
  (negativesWithin : ∀ negative ∈ negatives, negative.Within plain.alphabetSize)
  (accepted : ∀ sample ∈ remaining, plain.Accepts sample)

include accepted in
/-- All candidates are worth the same, whether scores are counted or not. -/
theorem worth_score (state : Nat) (skipBestSearch : Bool) (candidate : Nat) :
    worth (plain.score remaining state skipBestSearch) candidate =
      if skipBestSearch then 0 else remaining.length := by
  cases skipBestSearch with
  | true => rfl
  | false => exact PlainAutomaton.acceptedCount_merge accepted candidate state

include negativesWithin accepted

/-- Both searches find the same partner. -/
theorem search_unscored {automaton : Automaton} {state : Nat} {earlier : List Nat}
    (represents : automaton.Represents plain) (stateIn : state ∈ plain.active)
    (candidates : ∀ candidate ∈ earlier, candidate ∈ plain.active ∧ candidate ≠ state) :
    ∃ quick thorough, search true negatives remaining automaton state earlier = .ok quick ∧
      search false negatives remaining automaton state earlier = .ok thorough ∧
      quick.choice.map (·.unscored) = thorough.choice.map (·.unscored) := by
  have remainingWithin : ∀ sample ∈ remaining, sample.Within plain.alphabetSize :=
    fun sample member => (accepted sample member).within
  obtain ⟨quick, first, picks⟩ :=
    search_picks represents stateIn negativesWithin remainingWithin true candidates
  obtain ⟨thorough, best, again⟩ :=
    search_picks represents stateIn negativesWithin remainingWithin false candidates
  refine ⟨quick, thorough, first, best, picks.unscored_eq (fun left right => ?_) again⟩
  -- No candidate is better than another for either of them.
  simp only [worth_score accepted, lt_irrefl]

namespace SettleState

omit negativesWithin accepted in
/-- What becomes of a state depends neither on the kind of search nor on the score of its partner. -/
theorem resolve_searching (settings : Settings) (skipBestSearch : Bool) (settling : SettleState)
    (state : Nat)
    (waiting : List Nat) (choice : Option Choice) :
    settling.resolve (settings.searching skipBestSearch) state waiting choice =
      settling.resolve settings state waiting (choice.map (·.unscored)) := by
  cases choice <;> rfl

variable {settling : SettleState} (sound : settling.Sound negatives plain) (settings : Settings)
include sound

/-- A turn leads to the same state of a settlement with both kinds of search. -/
theorem Sound.turn_searching {examination : Examination} {next : SettleState}
    (done : settling.turn (settings.searching true) negatives remaining =
      .ok (some (examination, next))) :
    ∃ again, settling.turn (settings.searching false) negatives remaining = .ok (some (again, next)) ∧
      again.absorbedBy.isSome = examination.absorbedBy.isSome := by
  -- When all remaining samples match, every candidate scores alike and the first one wins.
  obtain ⟨state, waiting, found, pending, searched, rfl, rfl⟩ := exists_of_turn done
  obtain ⟨stateIn, candidates⟩ := sound.candidates pending
  obtain ⟨quick, thorough, first, best, same⟩ :=
    search_unscored negativesWithin accepted sound.represents stateIn candidates
  cases searched.symm.trans first
  refine ⟨⟨settling.states.size, state, thorough.counted, thorough.choice.map (·.partner)⟩, ?_, ?_⟩
  · rw [resolve_searching, same, ← resolve_searching settings false, SettleState.turn, pending]
    exact bind_of_ok best
  · have isSome := congrArg Option.isSome same
    simp only [Option.isSome_map] at isSome ⊢
    exact isSome.symm

/-- Settling leads to the same automaton with both kinds of search, by as many merges. -/
theorem Sound.settle_searching : ∃ settlement examinations,
    Training.settle (settings.searching true) negatives remaining settling.hypothesis settling.states
      settling.pending = .ok settlement ∧
    Training.settle (settings.searching false) negatives remaining settling.hypothesis settling.states
      settling.pending = .ok { settlement with examinations := examinations } ∧
    examinations.countP (·.absorbedBy.isSome) =
      settlement.examinations.countP (·.absorbedBy.isSome) := by
  have remainingWithin : ∀ sample ∈ remaining, sample.Within plain.alphabetSize :=
    fun sample member => (accepted sample member).within
  obtain ⟨settlement, settled, _⟩ :=
    sound.settle negativesWithin remainingWithin (settings.searching true)
  have turns : ∀ later examination next,
      settling.Reaches (settings.searching true) negatives remaining later →
      later.turn (settings.searching true) negatives remaining = .ok (some (examination, next)) →
      ∃ again, later.turn (settings.searching false) negatives remaining =
        .ok (some (again, next)) ∧ again.absorbedBy.isSome = examination.absorbedBy.isSome := by
    intro later examination next reached done
    -- The merges on the way lose no sample.
    obtain ⟨change, after⟩ := sound.reaches negativesWithin remainingWithin _ reached
    refine after.turn_searching ?_ ?_ settings done
    · simpa using negativesWithin
    · exact fun sample member => (accepted sample member).rename change
  obtain ⟨examinations, again, alike⟩ := settle_lockstep turns settled
  refine ⟨settlement, examinations, settled, again, ?_⟩
  have counts := congrArg (List.countP id) alike
  rwa [List.countP_map, List.countP_map] at counts

end SettleState

end Accepted

namespace Session

open WordSource (SameWords advance)

variable {source : Type}

/-- The session with the first partner or the best one taken from now on. -/
def searching (session : Session source) (skipBestSearch : Bool) : Session source :=
  { session with settings := session.settings.searching skipBestSearch }

/-- Once there is a path for the next sample, all the samples behind it are accepted. -/
def Saturated (session : Session source) : Prop :=
  ∀ sample remaining path, session.samples.positives.drop session.processed = sample :: remaining →
    session.hypothesis.isMatch sample = .ok false → coerce session.hypothesis sample = .ok path →
    ∀ other ∈ remaining, path.automaton.isMatch other = .ok true

/-- Nothing is left to be accepted behind the last sample. -/
theorem saturated_of_last {session : Session source}
    (last : session.samples.positives.length ≤ session.processed + 1) : session.Saturated := by
  intro sample remaining path next _ _ other member
  have lengths := congrArg List.length next
  rw [List.length_drop, List.length_cons] at lengths
  -- There is no room for another one in the list.
  have := List.length_pos_of_mem member
  omega

variable [WordSource source]

/-- Two steps from one session did the same to it, and drew as many words. -/
structure SameStep (session : Session source)
    (result again : Option StepReport × Session source) : Prop where
  /-- They report the same, apart from what was examined. -/
  step : result.1.map (·.step) = again.1.map (·.step)
  /-- They have processed as many samples. -/
  processed : result.2.processed = again.2.processed
  /-- They lead to the same automaton, down to its slots. -/
  hypothesis : result.2.hypothesis = again.2.hypothesis
  /-- Its states are listed in the same order. -/
  states : result.2.states = again.2.states
  /-- They have drawn as many words. -/
  drawn : ∃ count, result.2.random = advance session.random count ∧
    again.2.random = advance session.random count

/-- Both kinds of search lead to the same step, unless an automaton outgrew its limits in both. -/
def SearchesAlike (session : Session source) : Prop :=
  (∃ quick thorough, (session.searching true).step = .ok quick ∧
    (session.searching false).step = .ok thorough ∧ session.SameStep quick thorough) ∨
  ∃ fault, (session.searching true).step = .error fault ∧
    (session.searching false).step = .error fault ∧ Outgrown session.samples.alphabetSize fault

/-- Arranging states draws some words. -/
theorem exists_arrange_eq_advance (session : Session source) (states : List Nat) :
    ∃ count, (session.arrange states).2 = advance session.random count := by
  -- A deterministic order draws nothing; a shuffle draws some number of words.
  rw [arrange]
  split
  · exact ⟨0, rfl⟩
  · obtain ⟨count, drawn, _⟩ := ((SameWords.refl session.random).shuffle states).drawn
    exact ⟨count, drawn⟩

/-- Where a path leaves nothing to gain, both kinds of search merge its states the same way. -/
theorem Learnt.sameStep_of_path {session : Session source} {count : Nat} {plain : PlainAutomaton}
    (learnt : session.Learnt count plain) {sample : Sample} {remaining : List Sample} {path : Path}
    (next : session.samples.positives.drop session.processed = sample :: remaining)
    (rejected : session.hypothesis.isMatch sample = .ok false)
    (coerced : coerce session.hypothesis sample = .ok path)
    (accepted : ∀ other ∈ remaining, path.automaton.isMatch other = .ok true) :
    ∃ quick thorough, (session.searching true).step = .ok quick ∧
      (session.searching false).step = .ok thorough ∧ session.SameStep quick thorough := by
  obtain ⟨grown, spells, sound⟩ := learnt.settling next coerced
  have all : ∀ other ∈ remaining, grown.Accepts other :=
    fun other member => sound.represents.mem_language.1 (accepted other member)
  obtain ⟨settlement, examinations, settled, again, merges⟩ :=
    sound.settle_searching (spells.alphabet ▸ learnt.within.2) all session.settings
  have quick := (session.searching true).step_of_settled next rejected coerced settled
  have thorough := (session.searching false).step_of_settled next rejected coerced again
  obtain ⟨count, drawn⟩ := session.exists_arrange_eq_advance path.states
  refine ⟨_, _, quick, thorough, ?_⟩
  constructor
  case step =>
    -- The examinations differ at most in what was counted on the way.
    simp only [Option.map_some, pathReport, merges]
    rfl
  case drawn => exact ⟨count, drawn, drawn⟩
  all_goals rfl

/-- In a saturated session both kinds of search lead to the same step. -/
theorem Learnt.searchesAlike {session : Session source} {count : Nat} {plain : PlainAutomaton}
    (learnt : session.Learnt count plain) (saturated : session.Saturated) :
    session.SearchesAlike := by
  cases next : session.samples.positives.drop session.processed with
  | nil =>
    have ended : ∀ skipBestSearch, (session.searching skipBestSearch).step =
        .ok (none, session.searching skipBestSearch) := by
      intro skipBestSearch
      rw [Session.step]
      simp only [searching, next]
    exact .inl ⟨_, _, ended true, ended false, ⟨rfl, rfl, rfl, rfl, 0, rfl, rfl⟩⟩
  | cons sample remaining =>
    obtain ⟨_, within, _⟩ := learnt.next_positive next
    by_cases accepted : plain.Accepts sample
    · -- Nothing is searched for a sample that is accepted already.
      have known := (learnt.represents.isMatch_eq_true within).2 accepted
      have quick := (session.searching true).step_of_accepted next known
      have thorough := (session.searching false).step_of_accepted next known
      exact .inl ⟨_, _, quick, thorough, ⟨rfl, rfl, rfl, rfl, 0, rfl, rfl⟩⟩
    · have rejected := (learnt.represents.isMatch_eq_false within).2 accepted
      cases coerced : coerce session.hypothesis sample with
      | ok path =>
        exact .inl (learnt.sameStep_of_path next rejected coerced
          (saturated sample remaining path next rejected coerced))
      | error fault =>
        have quick := (session.searching true).step_of_stuck next rejected coerced
        have thorough := (session.searching false).step_of_stuck next rejected coerced
        exact .inr ⟨fault, quick, thorough, learnt.outgrown ⟨sample, remaining, next, coerced⟩⟩

end Session

variable {source : Type} [WordSource source]

/-- Where nothing is left to gain, and so on the last sample, both kinds of search are the same step. -/
theorem searchesAlike_run {samples : SampleSet}
    (disjoint : ∀ sample ∈ samples.positives, sample ∉ samples.negatives) (settings : Settings)
    (random : source) (count : Nat) :
    Completes samples.alphabetSize
      (fun session => (session.Saturated → session.SearchesAlike) ∧
        (session.samples.positives.length ≤ session.processed + 1 → session.SearchesAlike))
      (afterSteps settings samples random count) := by
  refine (afterSteps_learnt disjoint settings random count).imp fun session held => ?_
  obtain ⟨_, plain, learnt⟩ := held
  exact ⟨learnt.searchesAlike, fun last => learnt.searchesAlike (Session.saturated_of_last last)⟩

/-- Three positive samples, of which the first leads to an automaton that accepts the last one. -/
def sampleLoop : SampleSet where
  alphabetSize := 2
  positives := [[0], [1], [0, 0]]
  negatives := [[1, 1]]
  positives_within := within_of_all rfl
  negatives_within := within_of_all rfl

/-- No sample is labeled both ways. -/
theorem sampleLoop_disjoint : ∀ sample ∈ sampleLoop.positives, sample ∉ sampleLoop.negatives := by
  decide

omit [WordSource source] in
/-- A run on these samples starts with their lists as they are. -/
theorem start_loop (settings : Settings) (random : source) :
    Session.start settings sampleLoop random =
      .ok ⟨settings, sampleLoop, 0, .blank 2, #[], random⟩ := by
  -- The samples are listed in order, so sorting leaves them as they are.
  have sorted : sampleLoop.sort = sampleLoop :=
    SampleSet.sort_eq rfl (.refl _) (.refl _) (by decide)
  rw [Session.start_of_disjoint sampleLoop_disjoint, sorted,
    Automaton.ofAlphabet_of_isSome (by decide +kernel)]
  rfl

/-- The second step on these samples leaves one of them, which is accepted all along. -/
theorem searchesAlike_run_loop : ∃ events session,
    afterSteps {} sampleLoop (WordCycle.ofList [7]) 1 = .ok (events, session) ∧
      session.samples.positives.drop session.processed = [[1], [0, 0]] ∧
      session.Saturated ∧ session.SearchesAlike := by
  -- After one step `[0, 0]` is accepted already, and it is not the sample being learnt.
  have completes := searchesAlike_run sampleLoop_disjoint {} (WordCycle.ofList [7]) 1
  obtain ⟨events, session, run, alike, _⟩ := completes.exists_of_isSome (by
    rw [afterSteps, start_loop]
    decide +kernel)
  have coerced : ∀ result ∈ (afterSteps {} sampleLoop (WordCycle.ofList [7]) 1).toOption,
      result.2.samples.positives.drop result.2.processed = [[1], [0, 0]] ∧
        ((coerce result.2.hypothesis [1]).map fun path => path.automaton.isMatch [0, 0]) =
          .ok (.ok true) := by
    rw [afterSteps, start_loop]
    decide +kernel
  obtain ⟨next, matched⟩ := coerced (events, session) (by rw [run]; rfl)
  have saturated : session.Saturated := by
    intro sample remaining path left _ done other member
    cases next.symm.trans left
    rw [done] at matched
    rw [List.mem_singleton.1 member]
    exact Except.ok.inj matched
  exact ⟨events, session, run, next, saturated, alike saturated⟩

end Training

end NfaInduction
