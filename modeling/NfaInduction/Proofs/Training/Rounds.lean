import NfaInduction.Proofs.Training.SettleState
import NfaInduction.Proofs.Training.SearchState

/-! New states are examined in place, round by round, and each round tells what happens as it happens. -/

namespace NfaInduction

namespace Training

/-- What a search in place found, with the states that it tried and what it told meanwhile. -/
structure Inquiry (source : Type) where
  /-- Events of the search. -/
  told : List Event
  /-- Earlier states into which a merge was tried. -/
  tried : List Nat
  /-- The partner, if there is any. -/
  partner : Option Partner
  /-- The automata and states after the search. -/
  work : SearchState source

/-- What happened while one state was examined. -/
structure Round where
  /-- All states in the order of search, before anything happened. -/
  states : List Nat
  /-- Place of the state that was examined. -/
  place : Nat
  /-- The state that was examined. -/
  state : Nat
  /-- Earlier states into which a merge was tried. -/
  tried : List Nat
  /-- The partner that absorbed the state. -/
  absorbedBy : Option Partner
  /-- Events of the round. -/
  told : List Event

/-- Where a state was examined and what became of it. -/
def Round.outcome (round : Round) : Nat × Nat × Option Partner :=
  (round.place, round.state, round.absorbedBy)

/-- Where a state was examined and what became of it. -/
def Examination.outcome (examination : Examination) : Nat × Nat × Option Partner :=
  (examination.index, examination.state, examination.absorbedBy)

/-- A search for a partner tried the earlier states one after the other. -/
structure Tries (settings : Settings) (earlier tried : List Nat) (partner : Option Partner) :
    Prop where
  /-- They were tried in their order. -/
  inOrder : tried <+: earlier
  /-- All of them were tried, unless the first partner was enough. -/
  all : settings.skipBestSearch = false ∨ partner = none → tried = earlier

/-- After the first state the others are tried. -/
theorem Tries.cons {settings : Settings} {earlier tried : List Nat} {partner : Option Partner}
    (tries : Tries settings earlier tried partner) (candidate : Nat) :
    Tries settings (candidate :: earlier) (candidate :: tried) partner where
  inOrder := List.cons_prefix_cons.2 ⟨rfl, tries.inOrder⟩
  all thorough := congrArg (candidate :: ·) (tries.all thorough)

/-- The state at the place of a round was examined against the earlier states. -/
structure Round.Examines (settings : Settings) (earlier : List Nat) (round : Round) : Prop
    extends Tries settings earlier round.tried round.absorbedBy where
  /-- The earlier states stand in front of it. -/
  front : round.states.take round.place = earlier
  /-- The state stands at its place. -/
  state : round.states[round.place]? = some round.state

/-- The states without the one at a place. -/
def takeOut (deterministic : Bool) (place : Nat) (states : List Nat) : List Nat :=
  if deterministic then states.eraseIdx place
  else
    -- The last state takes the place of the one that is gone.
    match states.getLast? with
    | none => []
    | some last => (states.set place last).dropLast

/-- Where states are taken out, those in front stay and the others wait in their new order. -/
theorem takeOut_append (deterministic : Bool) (front : List Nat) (state : Nat)
    (waiting : List Nat) : takeOut deterministic front.length (front ++ state :: waiting) =
      front ++ waitingAfterMerge deterministic waiting := by
  cases deterministic with
  | true => simp [takeOut, waitingAfterMerge, List.eraseIdx_append_of_length_le]
  | false =>
    -- Either the state is the last one itself, or another one is moved to its place.
    obtain rfl | ⟨others, last, rfl⟩ := waiting.eq_nil_or_concat
    · simp [takeOut, waitingAfterMerge, lastFirst]
    · rw [List.concat_eq_append]
      have ending : front ++ state :: (others ++ [last]) = (front ++ state :: others) ++ [last] := by
        simp
      have moved : ((front ++ state :: others) ++ [last]).set front.length last =
          (front ++ last :: others) ++ [last] := by
        simp
      simp only [takeOut, waitingAfterMerge, lastFirst, ending, List.getLast?_concat, moved,
        List.dropLast_concat, Bool.false_eq_true, if_false]

namespace SearchState

variable {source : Type}

/-- Searches on in place, and tells of each partner whose score is counted if that is asked for. -/
def inquire (settings : Settings) (negatives remaining : List Sample) (place state : Nat) :
    (position : Nat) → (partner : Option Partner) → (earlier : List Nat) → SearchState source →
      Except Fault (Inquiry source)
  | _, partner, [], work => .ok ⟨[], [], partner, work⟩
  | position, partner, candidate :: rest, work => do
    let work ← work.tryMerge state candidate
    if ← work.candidate.acceptsAny negatives then
      let later ← inquire settings negatives remaining place state (position + 1) partner rest work
      return { later with tried := candidate :: later.tried }
    -- The first safe merge ends the search, and nothing is told of it.
    else if settings.skipBestSearch then
      return ⟨[], [candidate], some ⟨position, candidate, none⟩, work.swap⟩
    else
      let score ← work.candidate.acceptedCount remaining
      let told := if settings.showPossibleMerges then
        [Event.possibleMerge position place candidate state score] else []
      let counted : Partner := ⟨position, candidate, some score⟩
      let (partner, work) :=
        if improves score partner then (some counted, work.swap) else (partner, work)
      let later ← inquire settings negatives remaining place state (position + 1) partner rest work
      return { later with told := told ++ later.told, tried := candidate :: later.tried }

/-- What searches work on after the merge that one of them holds is made for the state at a place. -/
def commit (deterministic : Bool) (place : Nat) (work : SearchState source) : SearchState source :=
  { work with
    hypothesis := work.best
    best := work.hypothesis
    states := takeOut deterministic place work.states }

/-- Examines the state at a place, and says at which place to go on. -/
def round (settings : Settings) (negatives remaining : List Sample) (work : SearchState source)
    (place : Nat) (inside : place < work.states.length) :
    Except Fault (Round × Nat × SearchState source) := do
  let state := work.states[place]
  let inquiry ← work.inquire settings negatives remaining place state 0 none
    (work.states.take place)
  match inquiry.partner with
  | none =>
    return (⟨work.states, place, state, inquiry.tried, none, inquiry.told⟩, place + 1, inquiry.work)
  | some partner =>
    let told := if settings.showMerges then
      [Event.merge partner.position place partner.state state partner.score] else []
    -- The same place is examined again, with the state that is there now.
    return (⟨work.states, place, state, inquiry.tried, some partner, inquiry.told ++ told⟩, place,
      inquiry.work.commit settings.deterministic place)

/-- A search in place tried earlier states, told of those that counted, and found the same. -/
structure Answers (settings : Settings) (place state : Nat) (earlier : List Nat)
    (searched : Searched source) (inquiry : Inquiry source) : Prop
    extends Tries settings earlier inquiry.tried inquiry.partner where
  /-- It told what is told of the counted partners. -/
  told : inquiry.told = Session.examinationEvents settings ⟨place, state, searched.counted, none⟩
  /-- It found the same partner. -/
  partner : inquiry.partner = searched.partner
  /-- It left the same automata and states. -/
  work : inquiry.work = searched.work

variable {settings : Settings} {negatives remaining : List Sample} {place state : Nat}
  {work : SearchState source}

/-- Telling what happens meanwhile does not change what a search finds. -/
theorem inquire_answers {position : Nat} {partner : Option Partner} {earlier : List Nat} :
    SameOutcome (Answers settings place state earlier)
      (work.searchFrom settings.skipBestSearch negatives remaining state position partner earlier)
      (work.inquire settings negatives remaining place state position partner earlier) := by
  -- Both searches try the same merge and ask for the same verdict.
  induction earlier generalizing position partner work with
  | nil =>
    exact .ok ⟨⟨List.prefix_rfl, fun _ => rfl⟩, by simp [Session.examinationEvents], rfl, rfl⟩
  | cons candidate rest ih =>
    rw [searchFrom, inquire]
    refine (SameOutcome.refl (work.tryMerge state candidate)).bind fun tried _ _ same => ?_
    subst same
    refine (SameOutcome.refl (tried.candidate.acceptsAny negatives)).bind fun accepted _ _ same => ?_
    subst same
    cases accepted with
    | true =>
      -- Nothing is told of a merge that is not safe.
      refine ih.goOn fun searched inquiry answers => ?_
      exact .ok ⟨answers.toTries.cons candidate, answers.told, answers.partner, answers.work⟩
    | false =>
      simp only [Bool.false_eq_true, if_false]
      by_cases first : settings.skipBestSearch
      · simp only [first, if_true]
        refine .ok ⟨⟨?_, ?_⟩, by simp [Session.examinationEvents], rfl, rfl⟩
        · exact List.cons_prefix_cons.2 ⟨rfl, List.nil_prefix⟩
        · simp [first]
      · rw [if_neg first, if_neg first]
        refine (SameOutcome.refl (tried.candidate.acceptedCount remaining)).bind
          fun score _ _ same => ?_
        subst same
        -- Whether or not the partner is better, both go on with the same one.
        refine ih.bind fun searched inquiry _ answers => ?_
        refine .ok ⟨answers.toTries.cons candidate, ?_, answers.partner, answers.work⟩
        rw [answers.told]
        simp only [Session.examinationEvents]
        split <;> simp

/-- A search in place found what the pure search does, and holds the merge that is chosen. -/
structure Finds (settings : Settings) (work : SearchState source) (place state : Nat)
    (earlier : List Nat) (found : Findings) (inquiry : Inquiry source) : Prop
    extends Tries settings earlier inquiry.tried inquiry.partner where
  /-- It told what is told of the counted partners. -/
  told : inquiry.told = Session.examinationEvents settings ⟨place, state, found.counted, none⟩
  /-- It found the same partner. -/
  partner : inquiry.partner = found.choice.map (·.partner)
  /-- Only the automata in which merges are tried have changed. -/
  holds : work.Holds inquiry.work found.choice

/-- A search that tells what happens has the outcome of the pure search. -/
theorem inquire_finds (settings : Settings) (negatives remaining : List Sample)
    (work : SearchState source) {place : Nat} (inside : place < work.states.length) :
    SameOutcome (Finds settings work place work.states[place] (work.states.take place))
      (search settings.skipBestSearch negatives remaining work.hypothesis work.states[place]
        (work.states.take place))
      (work.inquire settings negatives remaining place work.states[place] 0 none
        (work.states.take place)) := by
  -- What the search finds, told through the questions asked at the search state.
  have searches :=
    work.searchPartner_leaves settings.skipBestSearch negatives remaining place inside
  refine (searches.trans inquire_answers).imp fun found inquiry both => ?_
  obtain ⟨searched, leaves, answers⟩ := both
  constructor
  case told => rw [answers.told, leaves.counted]
  case partner => rw [answers.partner, leaves.partner]
  case holds => rw [answers.work]; exact leaves.holds
  case toTries => exact answers.toTries

/-- A list in place lays out what a settlement works on: examined states fill it up to a place. -/
structure LaysOut (work : SearchState source) (place : Nat) (settling : SettleState) : Prop where
  /-- Both hold the same automaton. -/
  hypothesis : work.hypothesis = settling.hypothesis
  /-- States that wait stand behind those that stay. -/
  states : work.states = settling.states.toList ++ settling.pending
  /-- The first state that waits stands at the place. -/
  place : place = settling.states.size

/-- Behind the place there are as many states as wait. -/
theorem LaysOut.length_eq {settling : SettleState} (lays : work.LaysOut place settling) :
    work.states.length = place + settling.pending.length := by
  rw [lays.states, lays.place, List.length_append, Array.length_toList]

/-- A round in place is the turn of a settlement. -/
structure Turned (settings : Settings) (work : SearchState source) (settling : SettleState)
    (turn : Option (Examination × SettleState)) (result : Round × Nat × SearchState source) : Prop where
  /-- The state was examined against those that stay. -/
  examines : result.1.Examines settings settling.states.toList
  /-- No words were drawn. -/
  random : result.2.2.random = work.random
  /-- The turn examined the same state with the same outcome, and what is left of it is laid out. -/
  turn : ∃ examination next, turn = some (examination, next) ∧
    result.1.outcome = examination.outcome ∧
    result.1.told = Session.examinationEvents settings examination ∧
    result.2.2.LaysOut result.2.1 next

/-- A round in place has the outcome of a turn. -/
theorem LaysOut.round {settling : SettleState} (lays : work.LaysOut place settling)
    (inside : place < work.states.length) :
    SameOutcome (Turned settings work settling) (settling.turn settings negatives remaining)
      (work.round settings negatives remaining place inside) := by
  -- The state at the place is the first one that waits.
  have length := lays.length_eq
  obtain ⟨state, waiting, pending⟩ := List.exists_cons_of_length_pos
    (show 0 < settling.pending.length by omega)
  obtain ⟨hypothesis, states, rfl⟩ := lays
  have front : settling.states.size = settling.states.toList.length := Array.length_toList.symm
  have earlier : work.states.take settling.states.size = settling.states.toList := by
    rw [states, front, List.take_left]
  have found : work.states[settling.states.size]? = some state := by
    rw [states, pending, front, List.getElem?_append_right (Nat.le_refl _), Nat.sub_self]
    rfl
  have here : work.states[settling.states.size] = state :=
    Option.some.inj ((List.getElem?_eq_getElem inside).symm.trans found)
  have searches := inquire_finds settings negatives remaining work inside
  simp only [here, earlier, hypothesis] at searches
  simp only [SettleState.turn, pending, SearchState.round, here, earlier]
  refine searches.bind fun findings inquiry _ finds => ?_
  obtain ⟨counted, choice⟩ := findings
  obtain ⟨told, tried, partner, after⟩ := inquiry
  obtain ⟨tries, rfl, rfl, candidate, rfl⟩ := finds
  cases choice with
  | none =>
    refine .ok ⟨⟨tries, earlier, found⟩, rfl, _, _, rfl, rfl, rfl, ?_⟩
    -- The state stays, and the next one waits behind it.
    exact ⟨hypothesis, by simp [SettleState.resolve, states, pending], (Array.size_push state).symm⟩
  | some choice =>
    refine .ok ⟨⟨tries, earlier, found⟩, rfl, _, _, rfl, rfl, ?_, ?_⟩
    · simp [Session.examinationEvents]
    · -- The state is gone, and another one waits at its place.
      refine ⟨rfl, ?_, rfl⟩
      show takeOut settings.deterministic settling.states.size work.states = _
      rw [states, pending, front, takeOut_append]
      rfl

/-- A round that was taken in place was the turn of a settlement. -/
theorem LaysOut.exists_turn {settling : SettleState} (lays : work.LaysOut place settling)
    (inside : place < work.states.length) {result : Round × Nat × SearchState source}
    (taken : work.round settings negatives remaining place inside = .ok result) :
    ∃ turn, settling.turn settings negatives remaining = .ok turn ∧
      Turned settings work settling turn result := by
  -- The round has the same outcome as the turn, so a round that ended gives a turn.
  have same : SameOutcome (Turned settings work settling)
      (settling.turn settings negatives remaining)
      (work.round settings negatives remaining place inside) := lays.round inside
  rw [taken] at same
  exact same.exists_of_ok_right

/-- A round leaves fewer states to be examined. -/
theorem length_sub_lt_of_round (inside : place < work.states.length)
    {result : Round × Nat × SearchState source}
    (taken : work.round settings negatives remaining place inside = .ok result) :
    result.2.2.states.length - result.2.1 < work.states.length - place := by
  -- Any place of the list may be taken as the one up to which states are examined.
  let settling : SettleState :=
    ⟨work.hypothesis, (work.states.take place).toArray, work.states.drop place⟩
  have lays : work.LaysOut place settling := ⟨rfl, by simp [settling], by simp [settling]; omega⟩
  obtain ⟨turn, done, turned⟩ := lays.exists_turn inside taken
  obtain ⟨examination, later, rfl, _, _, after⟩ := turned.turn
  have fewer := SettleState.length_pending_of_turn done
  have length := lays.length_eq
  have left := after.length_eq
  omega

/-- Examines the states from a place on, one round after the other. -/
def mergeFrom (settings : Settings) (negatives remaining : List Sample) (place : Nat)
    (work : SearchState source) : Except Fault (List Round × SearchState source) :=
  if inside : place < work.states.length then
    match taken : work.round settings negatives remaining place inside with
    | .error fault => .error fault
    | .ok (round, next, after) => do
      have := length_sub_lt_of_round inside taken
      let (later, last) ← after.mergeFrom settings negatives remaining next
      return (round :: later, last)
  else .ok ([], work)
termination_by work.states.length - place

/-- As long as there is a state at the place, the next round goes on from it. -/
theorem mergeFrom_of_inside (inside : place < work.states.length) :
    work.mergeFrom settings negatives remaining place = (do
      let (round, next, after) ← work.round settings negatives remaining place inside
      let (later, last) ← after.mergeFrom settings negatives remaining next
      return (round :: later, last)) := by
  -- Inside the list, the recursion is one round and then the rest.
  rw [mergeFrom, dif_pos inside]
  split
  · rename_i fault failed
    exact (bind_of_error failed).symm
  · rename_i round next after taken
    rw [bind_of_ok taken]

/-- What came of the rounds in place is what a settlement comes to. -/
structure Settled (settings : Settings) (random : source) (settlement : Settlement)
    (result : List Round × SearchState source) : Prop where
  /-- Both lead to the same automaton. -/
  hypothesis : result.2.hypothesis = settlement.hypothesis
  /-- The same states stay, in the same order. -/
  states : result.2.states = settlement.states.toList
  /-- No more words were drawn. -/
  random : result.2.random = random
  /-- The same states were examined in the same places, and absorbed by the same partners. -/
  outcomes : result.1.map Round.outcome = settlement.examinations.map Examination.outcome
  /-- What was told meanwhile is what is told of the examinations. -/
  told : result.1.flatMap (·.told) =
    settlement.examinations.flatMap (Session.examinationEvents settings)

/-- As many states were absorbed. -/
theorem Settled.merges {settlement : Settlement} {result : List Round × SearchState source}
    {random : source} (settled : Settled settings random settlement result) :
    result.1.countP (·.absorbedBy.isSome) =
      settlement.examinations.countP (·.absorbedBy.isSome) := by
  have counts := congrArg (List.countP (·.2.2.isSome)) settled.outcomes
  rwa [List.countP_map, List.countP_map] at counts

/-- Rounds in place have the outcome of a settlement. -/
theorem LaysOut.mergeFrom {settling : SettleState} (lays : work.LaysOut place settling) :
    SameOutcome (Settled settings work.random)
      (settle settings negatives remaining settling.hypothesis settling.states settling.pending)
      (work.mergeFrom settings negatives remaining place) := by
  -- After each round one state waits less.
  induction count : settling.pending.length generalizing work place settling with
  | zero =>
    have none := List.eq_nil_of_length_eq_zero count
    have length := lays.length_eq
    rw [none, settle, SearchState.mergeFrom, dif_neg (by omega)]
    exact .ok ⟨lays.hypothesis, by rw [lays.states, none, List.append_nil], rfl, rfl, rfl⟩
  | succ count ih =>
    have inside : place < work.states.length := by
      rw [lays.length_eq]
      omega
    rw [SettleState.settle_eq, mergeFrom_of_inside inside]
    refine (lays.round inside).bind fun turn result taken turned => ?_
    obtain ⟨examination, next, rfl, outcome, told, after⟩ := turned.turn
    have fewer := SettleState.length_pending_of_turn taken
    refine (ih after (by omega)).bind fun settlement later _ settled => ?_
    exact .ok {
      hypothesis := settled.hypothesis
      states := settled.states
      random := settled.random.trans turned.random
      outcomes := congrArg₂ List.cons outcome settled.outcomes
      told := congrArg₂ (· ++ ·) told settled.told }

/-- What searches work on with the states of a path behind all others. -/
def withPath (work : SearchState source) (path : Path) : SearchState source :=
  { work with
    hypothesis := path.automaton
    states := work.states ++ path.states }

variable [WordSource source]

/-- Puts the states from a place on in the order in which they are examined. -/
def arrangeFrom (settings : Settings) (pending : Nat) (work : SearchState source) :
    SearchState source :=
  if settings.deterministic then work
  else
    let (shuffled, random) := WordSource.shuffle (work.states.drop pending) work.random
    { work with states := work.states.take pending ++ shuffled, random }

/-- Merges the states from a place on wherever that is safe. -/
def mergePending (settings : Settings) (negatives remaining : List Sample) (pending : Nat)
    (work : SearchState source) : Except Fault (List Round × SearchState source) :=
  (work.arrangeFrom settings pending).mergeFrom settings negatives remaining pending

end SearchState

namespace Session

variable {source : Type} [WordSource source]

omit [WordSource source] in
/-- What a session works on in place, with any two automata to try merges in. -/
def searchState (session : Session source) (candidate best : Automaton) : SearchState source :=
  ⟨session.hypothesis, candidate, best, session.states.toList, session.random⟩

variable (session : Session source) (candidate best : Automaton) (path : Path)

/-- The states of a path wait in the order in which a session arranges them. -/
theorem arrangeFrom_searchState :
    ((session.searchState candidate best).withPath path).arrangeFrom session.settings
        session.states.size =
      ⟨path.automaton, candidate, best, session.states.toList ++ (session.arrange path.states).1,
        (session.arrange path.states).2⟩ := by
  have front : session.states.size = session.states.toList.length := Array.length_toList.symm
  simp only [SearchState.arrangeFrom, searchState, SearchState.withPath, arrange, front, List.take_left,
    List.drop_left]
  split <;> rfl

/-- In place, the settlement of a path is laid out behind the states of a session. -/
theorem laysOut_searchState :
    (((session.searchState candidate best).withPath path).arrangeFrom session.settings
      session.states.size).LaysOut session.states.size (session.settling path) := by
  rw [arrangeFrom_searchState]
  exact ⟨rfl, rfl, rfl⟩

/-- Merging the states of a path in place has the outcome of settling them. -/
theorem settle_mergePending (remaining : List Sample) :
    SameOutcome (SearchState.Settled session.settings (session.arrange path.states).2)
      (settle session.settings session.samples.negatives remaining path.automaton session.states
        (session.arrange path.states).1)
      (((session.searchState candidate best).withPath path).mergePending session.settings
        session.samples.negatives remaining session.states.size) := by
  refine (session.laysOut_searchState candidate best path).mergeFrom.imp fun _ _ settled => ?_
  rwa [arrangeFrom_searchState] at settled

end Session

end Training

end NfaInduction
