import NfaInduction.Proofs.Training.Outcome

/-! Wherever a search is made in the middle of a step, it selects the first of the best safe merges. -/

namespace NfaInduction

/-- How many of the words an automaton accepts, where no other is counted. -/
def Automaton.countAccepted (automaton : Automaton) (words : List Sample) : Nat :=
  words.countP fun word => (automaton.isMatch word).toOption == some true

/-- Words are counted one by one. -/
theorem Automaton.acceptedCount_eq_ok {automaton : Automaton} {words : List Sample} {count : Nat}
    (counted : automaton.acceptedCount words = .ok count) : automaton.countAccepted words = count := by
  -- The count was completed, so every word was matched without a fault.
  induction words generalizing count with
  | nil =>
    cases counted
    rfl
  | cons word rest ih =>
    obtain ⟨accepted, matched, counted⟩ := bind_eq_ok.1 counted
    obtain ⟨others, later, done⟩ := bind_eq_ok.1 counted
    cases done
    have before := ih later
    rw [countAccepted] at before ⊢
    rw [List.countP_cons, before, matched]
    cases accepted <;> rfl

namespace Training

/-- What a search for a partner is made in and for. -/
structure Query where
  /-- Whether the first partner is taken instead of the best one. -/
  skipBestSearch : Bool
  /-- Samples that must not be accepted. -/
  negatives : List Sample
  /-- Samples that are to be accepted later on. -/
  remaining : List Sample
  /-- The automaton. -/
  hypothesis : Automaton
  /-- Its states in the order of search. -/
  states : List Nat
  /-- Place of the state that is to be absorbed. -/
  place : Nat
  /-- There is a state at this place. -/
  inside : place < states.length

namespace Query

/-- The state that is to be absorbed. -/
def state (query : Query) : Nat := query.states.get ⟨query.place, query.inside⟩

/-- Letting the state at an earlier place absorb the one in question gives an automaton. -/
def Merges (query : Query) (earlier : Nat) (merged : Automaton) : Prop :=
  ∃ kept, query.states[earlier]? = some kept ∧
    query.hypothesis.merge kept query.state = .done merged

/-- An earlier place is safe if the automaton after the merge rejects every negative sample. -/
structure Safe (query : Query) (earlier : Nat) (merged : Automaton) : Prop where
  /-- It is earlier. -/
  before : earlier < query.place
  /-- The states are merged. -/
  merges : query.Merges earlier merged
  /-- Negative samples are rejected. -/
  rejects : ∀ negative ∈ query.negatives, merged.isMatch negative = .ok false

/-- The least of the safe places, which is not scored. -/
structure First (query : Query) (partner : Partner) (merged : Automaton) : Prop where
  /-- It is safe. -/
  safe : query.Safe partner.position merged
  /-- It has no score. -/
  score : partner.score = none
  /-- No safe place is before it. -/
  least : ∀ earlier other, query.Safe earlier other → partner.position ≤ earlier

/-- The least of the safe places with the best score. -/
structure Best (query : Query) (partner : Partner) (merged : Automaton) : Prop where
  /-- It is safe. -/
  safe : query.Safe partner.position merged
  /-- Its score is the number of remaining samples that are accepted after the merge. -/
  score : partner.score = some (merged.countAccepted query.remaining)
  /-- No safe place has a better score. -/
  best : ∀ earlier other, query.Safe earlier other →
    other.countAccepted query.remaining ≤ merged.countAccepted query.remaining
  /-- No safe place with this score is before it. -/
  least : ∀ earlier other, query.Safe earlier other →
    other.countAccepted query.remaining = merged.countAccepted query.remaining →
      partner.position ≤ earlier

/-- What a search is to answer: no partner if no place is safe, and else the first or best of them. -/
def Answer (query : Query) : Option Choice → Prop
  | none => ∀ earlier merged, ¬query.Safe earlier merged
  | some choice =>
    query.states[choice.partner.position]? = some choice.partner.state ∧
      if query.skipBestSearch then query.First choice.partner choice.merged
      else query.Best choice.partner choice.merged

/-- A query about the states of a plain automaton, for samples over its alphabet. -/
structure Sound (query : Query) (plain : PlainAutomaton) : Prop where
  /-- The automaton represents the plain one. -/
  represents : query.hypothesis.Represents plain
  /-- No state is listed twice. -/
  nodup : query.states.Nodup
  /-- All that is listed are states. -/
  active : ∀ state ∈ query.states, state ∈ plain.active
  /-- Negative samples keep to the alphabet. -/
  negativesWithin : ∀ negative ∈ query.negatives, negative.Within plain.alphabetSize
  /-- Remaining samples keep to the alphabet. -/
  remainingWithin : ∀ sample ∈ query.remaining, sample.Within plain.alphabetSize

/-- The states before the place in question stand where they stand among all states. -/
theorem take_eq_some_iff {query : Query} {earlier kept : Nat} :
    (query.states.take query.place)[earlier]? = some kept ↔
      earlier < query.place ∧ query.states[earlier]? = some kept := by
  rw [List.getElem?_take]
  split <;> simp_all

section Sound

variable {query : Query} {plain : PlainAutomaton} (sound : query.Sound plain)
include sound

/-- The state in question is one of the automaton. -/
theorem Sound.state_mem : query.state ∈ plain.active :=
  sound.active query.state (List.getElem_mem query.inside)

/-- Earlier states are other states of the automaton. -/
theorem Sound.candidates : ∀ candidate ∈ query.states.take query.place,
    candidate ∈ plain.active ∧ candidate ≠ query.state := by
  intro candidate member
  refine ⟨sound.active candidate (List.mem_of_mem_take member), ?_⟩
  rintro rfl
  -- The state in question is the first of those that are not taken.
  obtain ⟨earlier, before, same⟩ := List.mem_take_iff_getElem.1 member
  have distinct := (sound.nodup.getElem_inj_iff).1 same
  omega

/-- Any earlier state can absorb the one in question. -/
theorem Sound.merges {earlier : Nat} (before : earlier < query.place) :
    ∃ merged, query.Merges earlier merged := by
  -- An earlier state is another active one, so merging it with the state in hand goes through.
  have there : earlier < query.states.length := Nat.lt_trans before query.inside
  have member : query.states[earlier] ∈ query.states.take query.place :=
    List.mem_take_iff_getElem.2 ⟨earlier, by omega, rfl⟩
  obtain ⟨active, distinct⟩ := sound.candidates _ member
  obtain ⟨merged, done, _⟩ := sound.represents.merge_eq_done active sound.state_mem distinct
  exact ⟨merged, _, List.getElem?_eq_getElem there, done⟩

/-- After a merge the automaton represents the plain one after the merge. -/
theorem Sound.represents_merge {kept : Nat} {merged : Automaton}
    (member : kept ∈ query.states.take query.place)
    (done : query.hypothesis.merge kept query.state = .done merged) :
    merged.Represents (plain.merge kept query.state) := by
  obtain ⟨active, distinct⟩ := sound.candidates kept member
  obtain ⟨_, again, result⟩ := sound.represents.merge_eq_done active sound.state_mem distinct
  cases done.symm.trans again
  exact result

/-- A place is safe if the merge is so for the plain automaton. -/
theorem Sound.safe_iff {earlier : Nat} {merged : Automaton} : query.Safe earlier merged ↔
    ∃ kept, (query.states.take query.place)[earlier]? = some kept ∧
      query.hypothesis.merge kept query.state = .done merged ∧
      ¬plain.Unsafe query.negatives kept query.state := by
  -- The samples that must not be accepted are matched by the automaton as by the plain one.
  have rejected : ∀ kept ∈ query.states.take query.place,
      query.hypothesis.merge kept query.state = .done merged →
      ((∀ negative ∈ query.negatives, merged.isMatch negative = .ok false) ↔
        ¬plain.Unsafe query.negatives kept query.state) := by
    intro kept member done
    have result := sound.represents_merge member done
    simp only [PlainAutomaton.Unsafe, not_exists, not_and]
    exact forall₂_congr fun negative within =>
      result.isMatch_eq_false (sound.negativesWithin negative within)
  constructor
  · rintro ⟨before, ⟨kept, there, done⟩, rejects⟩
    have there := take_eq_some_iff.2 ⟨before, there⟩
    exact ⟨kept, there, done, (rejected kept (List.mem_of_getElem? there) done).1 rejects⟩
  · rintro ⟨kept, there, done, safe⟩
    have member := List.mem_of_getElem? there
    obtain ⟨before, there⟩ := take_eq_some_iff.1 there
    exact ⟨before, ⟨kept, there, done⟩, (rejected kept member done).2 safe⟩

/-- The score of a merge is what the plain automaton after it accepts of the remaining samples. -/
theorem Sound.worth_eq {kept : Nat} {merged : Automaton}
    (member : kept ∈ query.states.take query.place)
    (done : query.hypothesis.merge kept query.state = .done merged) :
    merged.countAccepted query.remaining =
      (plain.merge kept query.state).acceptedCount query.remaining :=
  Automaton.acceptedCount_eq_ok
    ((sound.represents_merge member done).acceptedCount sound.remainingWithin)

/-- What is picked among the earlier states is the answer. -/
theorem Sound.answer_of_picks {choice : Option Choice}
    (picks : Picks query.hypothesis plain query.negatives query.state
      (plain.score query.remaining query.state query.skipBestSearch)
      (query.states.take query.place) choice) : query.Answer choice := by
  -- A pick names its candidate by state, and an answer by position.
  cases choice with
  | none =>
    intro earlier merged safe
    obtain ⟨kept, there, _, safe⟩ := sound.safe_iff.1 safe
    exact safe (picks kept (List.mem_of_getElem? there))
  | some choice =>
    have placed := picks.placed
    have member := List.mem_of_getElem? placed
    obtain ⟨_, _, _, picked⟩ := id picks
    have safe : query.Safe choice.partner.position choice.merged :=
      sound.safe_iff.2 ⟨_, placed, picked.merged, picked.safe⟩
    refine ⟨(take_eq_some_iff.1 placed).2, ?_⟩
    cases skip : query.skipBestSearch with
    | true =>
      rw [skip] at picks picked
      refine ⟨safe, picked.scored, fun earlier merged other => ?_⟩
      obtain ⟨kept, there, _, other⟩ := sound.safe_iff.1 other
      -- Without scores all are worth the same.
      exact picks.position_le there other (Nat.le_refl _)
    | false =>
      rw [skip] at picks picked
      -- With scores the worth of a candidate is the count that its merge reaches.
      have score := sound.worth_eq member picked.merged
      refine ⟨safe, ?_, fun earlier merged other => ?_, fun earlier merged other same => ?_⟩
      · rw [picked.scored, score]
        rfl
      · obtain ⟨kept, there, done, other⟩ := sound.safe_iff.1 other
        have among := List.mem_of_getElem? there
        rw [score, sound.worth_eq among done]
        exact picks.worth_le among other
      · obtain ⟨kept, there, done, other⟩ := sound.safe_iff.1 other
        rw [score, sound.worth_eq (List.mem_of_getElem? there) done] at same
        exact picks.position_le there other (Nat.le_of_eq same.symm)

/-- A search answers the query. -/
theorem Sound.search : ∃ found, search query.skipBestSearch query.negatives query.remaining
    query.hypothesis query.state (query.states.take query.place) = .ok found ∧
      query.Answer found.choice := by
  obtain ⟨found, searched, picks⟩ := search_picks sound.represents sound.state_mem
    sound.negativesWithin sound.remainingWithin query.skipBestSearch sound.candidates
  exact ⟨found, searched, sound.answer_of_picks picks⟩

end Sound

variable {source : Type}

/-- What a query is searched in, whatever stands in the automata that merges are tried in. -/
def searchState (query : Query) (candidate best : Automaton) (random : source) : SearchState source :=
  ⟨query.hypothesis, candidate, best, query.states, random⟩

/-- A search selects a partner, with the automaton after the merge and nothing else left behind. -/
def Selects (source : Type) (query : Query) (choice : Option Choice) : Prop :=
  ∃ counted, ∀ candidate best (random : source), ∃ left,
    (query.searchState candidate best random).searchPartner query.skipBestSearch query.negatives
      query.remaining query.place query.inside =
        .ok ⟨counted, choice.map (·.partner), query.searchState left (choice.elim best (·.merged)) random⟩

/-- What a search selects is the answer to the query. -/
theorem Sound.selects {query : Query} {plain : PlainAutomaton} (sound : query.Sound plain) :
    ∃ choice, query.Answer choice ∧ query.Selects source choice := by
  obtain ⟨found, searched, answer⟩ := sound.search
  exact ⟨found.choice, answer, found.counted, fun candidate best random =>
    (query.searchState candidate best random).searchPartner_of_search query.skipBestSearch query.negatives
      query.remaining query.inside searched⟩

end Query

/-- The search for a state of a settlement, among all states listed before it. -/
def Session.query {source : Type} (session : Session source) (remaining : List Sample)
    (settling : SettleState) (place : Nat)
    (inside : place < (settling.states.toList ++ settling.pending).length) :
    Query where
  skipBestSearch := session.settings.skipBestSearch
  negatives := session.samples.negatives
  remaining := remaining
  hypothesis := settling.hypothesis
  states := settling.states.toList ++ settling.pending
  place := place
  inside := inside

/-- Wherever a search is made in the middle of a step, it selects the first or the best partner. -/
theorem selects_run {source : Type} [WordSource source] {settings : Settings} {samples : SampleSet}
    {random : source} {count : Nat} {events : List Event} {session : Session source}
    (run : afterSteps settings samples random count = .ok (events, session)) {sample : Sample}
    {remaining : List Sample}
    (next : session.samples.positives.drop session.processed = sample :: remaining) {path : Path}
    (coerced : coerce session.hypothesis sample = .ok path) {settling : SettleState}
    (reached : (session.settling path).Reaches session.settings session.samples.negatives remaining
      settling)
    {place : Nat} (inside : place < (settling.states.toList ++ settling.pending).length) :
    (∀ earlier < place, ∃ merged, (session.query remaining settling place inside).Merges earlier merged) ∧
      ∃ choice, (session.query remaining settling place inside).Answer choice ∧
        (session.query remaining settling place inside).Selects source choice := by
  obtain ⟨first, started, _⟩ := afterSteps_eq_ok.1 run
  have learnt := afterSteps_learnt (Session.disjoint_of_start started) settings random count
  rw [run] at learnt
  obtain ⟨_, plain, learnt⟩ := learnt
  -- The automaton that is settled is the one with the path, up to the names of its states.
  obtain ⟨grown, spells, sound⟩ := learnt.settling next coerced
  obtain ⟨_, _, remainingWithin⟩ := learnt.next_positive next
  have negativesWithin := learnt.within.2
  rw [← spells.alphabet] at remainingWithin negativesWithin
  obtain ⟨change, later⟩ :=
    sound.reaches negativesWithin remainingWithin session.settings reached
  have asked : (session.query remaining settling place inside).Sound (grown.rename change) := {
    represents := later.represents
    nodup := later.examined.nodup
    active := fun state => (later.examined.active state).2
    negativesWithin := negativesWithin
    remainingWithin := remainingWithin }
  exact ⟨fun earlier before => asked.merges before, asked.selects⟩

/-- In the second step on these samples, the first state of the path is searched a partner for. -/
theorem selects_run_square : ∃ events session path,
    afterSteps {} sampleSquare (WordCycle.ofList [7]) 1 = .ok (events, session) ∧
      session.hypothesis.isMatch [0, 1] = .ok false ∧
      coerce session.hypothesis [0, 1] = .ok path ∧
      ∃ inside : 2 < ((session.settling path).states.toList ++ (session.settling path).pending).length,
        (∀ earlier < 2, ∃ merged,
          (session.query [] (session.settling path) 2 inside).Merges earlier merged) ∧
        ∃ choice, (session.query [] (session.settling path) 2 inside).Answer choice ∧
          (session.query [] (session.settling path) 2 inside).Selects WordCycle choice := by
  -- Position 2 has two earlier states, and both merges are looked at.
  obtain ⟨events, session, run, _⟩ :=
    (afterSteps_learnt sampleSquare_disjoint {} (WordCycle.ofList [7]) 1).exists_of_isSome
      (afterSteps_square_isSome 1 (by decide))
  have next := next_square (events, session) (by rw [run]; rfl)
  have computed : ∀ result ∈ (afterSteps {} sampleSquare (WordCycle.ofList [7]) 1).toOption,
      result.2.hypothesis.isMatch [0, 1] = .ok false ∧
        ((coerce result.2.hypothesis [0, 1]).map fun path =>
          (result.2.states.toList ++ (result.2.arrange path.states).1).length) = .ok 5 := by
    rw [afterSteps, start_square]
    decide +kernel
  obtain ⟨rejected, listed⟩ := computed (events, session) (by rw [run]; rfl)
  obtain ⟨path, coerced, length⟩ := map_eq_ok.1 listed
  have inside : 2 < ((session.settling path).states.toList ++ (session.settling path).pending).length :=
    Nat.lt_of_lt_of_eq (by decide) length.symm
  exact ⟨events, session, path, run, rejected, coerced, inside, selects_run run next coerced .refl inside⟩

end Training

end NfaInduction
