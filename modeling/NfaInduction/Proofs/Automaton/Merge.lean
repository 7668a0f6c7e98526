import NfaInduction.Proofs.Automaton.Represents
import NfaInduction.StateSet.ListingLaws

/-! Merging two states gives the absorbed one the name of the kept one, in flags and transitions. -/

namespace NfaInduction

namespace Automaton

open PlainAutomaton (standIn exists_standIn)

variable {automaton : Automaton} {plain : PlainAutomaton}

/-- Steps between states after one state has absorbed another. -/
def Renamed (kept absorbed : Nat) (steps : Nat → Nat → Prop) (source target : Nat) : Prop :=
  ∃ first last, steps first last ∧ standIn kept absorbed first = source ∧
    standIn kept absorbed last = target

/-- A renamed step left a state with the name of its source. -/
theorem renamed_iff {kept absorbed : Nat} {steps : Nat → Nat → Prop} {source target : Nat} :
    Renamed kept absorbed steps source target ↔
      ((∃ last, steps source last ∧ standIn kept absorbed last = target) ∧ source ≠ absorbed) ∨
        (source = kept ∧ ∃ last, steps absorbed last ∧ standIn kept absorbed last = target) := by
  -- The name of the target does not matter for that.
  have origin := @exists_standIn kept absorbed source fun first =>
    ∃ last, steps first last ∧ standIn kept absorbed last = target
  rw [← origin]
  constructor
  · rintro ⟨first, last, step, start, named⟩
    exact ⟨first, ⟨last, step, named⟩, start⟩
  · rintro ⟨first, ⟨last, step, named⟩, start⟩
    exact ⟨first, last, step, start, named⟩

/-- The successor rows after a move: absorbed targets are replaced, and then two rows united. -/
theorem successors_moveRows (automaton : Automaton) (kept absorbed symbol : Nat) :
    (automaton.moveRows kept absorbed symbol).successors =
      ((((automaton.predecessors.unionRows symbol kept absorbed).row absorbed symbol).toList.foldl
        (fun matrix state => matrix.redirect state symbol absorbed kept)
        automaton.successors).unionRows symbol kept absorbed) := by
  rw [moveRows]

/-- The predecessor rows after a move: two rows are united, and then absorbed sources replaced. -/
theorem predecessors_moveRows (automaton : Automaton) (kept absorbed symbol : Nat) :
    (automaton.moveRows kept absorbed symbol).predecessors =
      (((automaton.moveRows kept absorbed symbol).successors.row absorbed symbol).toList.foldl
        (fun matrix state => matrix.redirect state symbol absorbed kept)
        (automaton.predecessors.unionRows symbol kept absorbed)) := by
  rw [successors_moveRows, moveRows]

/-- Moving rows keeps the alphabet and the capacity of the successor rows. -/
theorem shape_successors_moveRows (automaton : Automaton) (kept absorbed symbol : Nat) :
    (automaton.moveRows kept absorbed symbol).successors.alphabetSize =
        automaton.successors.alphabetSize ∧
      (automaton.moveRows kept absorbed symbol).successors.capacity =
        automaton.successors.capacity := by
  -- Only rows are changed.
  simp [successors_moveRows]

/-- Moving rows keeps the alphabet and the capacity of the predecessor rows. -/
theorem shape_predecessors_moveRows (automaton : Automaton) (kept absorbed symbol : Nat) :
    (automaton.moveRows kept absorbed symbol).predecessors.alphabetSize =
        automaton.predecessors.alphabetSize ∧
      (automaton.moveRows kept absorbed symbol).predecessors.capacity =
        automaton.predecessors.capacity := by
  -- Only rows are changed.
  simp [predecessors_moveRows]

/-- Moving rows touches neither the slots in use nor the flags. -/
theorem flags_moveRows (automaton : Automaton) (kept absorbed symbol : Nat) :
    (automaton.moveRows kept absorbed symbol).active = automaton.active ∧
      (automaton.moveRows kept absorbed symbol).initial = automaton.initial ∧
      (automaton.moveRows kept absorbed symbol).finals = automaton.finals := by
  rw [moveRows]
  exact ⟨rfl, rfl, rfl⟩

/-- Moving rows keeps every capacity and the alphabets. -/
theorem Shaped.moveRows (shaped : automaton.Shaped) (kept absorbed symbol : Nat) :
    (automaton.moveRows kept absorbed symbol).Shaped := by
  -- Moving rows leaves the sets alone and keeps the shape of both matrices.
  have successors := shape_successors_moveRows automaton kept absorbed symbol
  have predecessors := shape_predecessors_moveRows automaton kept absorbed symbol
  obtain ⟨active, initial, finals⟩ := flags_moveRows automaton kept absorbed symbol
  have room : (automaton.moveRows kept absorbed symbol).maxStates = automaton.maxStates := by
    rw [maxStates, active, maxStates]
  constructor
  case reached => rw [room]; exact shaped.reached
  case initial => rw [room, initial]; exact shaped.initial
  case finals => rw [room, finals]; exact shaped.finals
  case successors => rw [room, successors.2]; exact shaped.successors
  case predecessors => rw [room, predecessors.2]; exact shaped.predecessors
  case alphabet => rw [predecessors.1, shaped.alphabet, alphabetSize, alphabetSize, successors.1]

/-- Whether a successor row holds a target once the absorbed one is replaced by the kept one. -/
def redirected (automaton : Automaton) (kept absorbed symbol source target : Nat) : Bool :=
  if automaton.predecessors.contains absorbed symbol source then
    (automaton.successors.contains source symbol target || decide (target = kept)) &&
      decide (target ≠ absorbed)
  else automaton.successors.contains source symbol target

/-- Whether a predecessor row holds a source once the kept state has the rows of both states. -/
def united (automaton : Automaton) (kept absorbed symbol target source : Nat) : Bool :=
  automaton.predecessors.contains target symbol source ||
    (decide (target = kept) && automaton.predecessors.contains absorbed symbol source)

section Rows

variable {kept absorbed symbol : Nat} (shaped : automaton.Shaped)
  (keptRoom : kept < automaton.maxStates) (inAlphabet : symbol < automaton.alphabetSize)
include shaped keptRoom inAlphabet

/-- Uniting the predecessor rows adds the absorbed state's predecessors to those of the kept one. -/
theorem contains_united (target : Nat) {other : Nat} (otherInAlphabet : other < automaton.alphabetSize)
    (source : Nat) :
    (automaton.predecessors.unionRows symbol kept absorbed).contains target other source =
      if target = kept ∧ other = symbol then
        automaton.predecessors.contains kept symbol source ||
          automaton.predecessors.contains absorbed symbol source
      else automaton.predecessors.contains target other source :=
  TransitionMatrix.contains_unionRows (by rwa [shaped.predecessors]) (by rwa [shaped.alphabet])
    absorbed target (by rwa [shaped.alphabet]) source

variable (distinct : kept ≠ absorbed)
include distinct

/-- The successor rows to be changed are those of the absorbed state's predecessors. -/
theorem mem_redirectedSources (source : Nat) :
    source ∈ ((automaton.predecessors.unionRows symbol kept absorbed).row absorbed symbol).toList ↔
      automaton.predecessors.contains absorbed symbol source := by
  -- The union changes another row.
  have united := @contains_united _ kept absorbed _ shaped keptRoom inAlphabet absorbed _ inAlphabet
    source
  rw [if_neg fun same => distinct same.1.symm] at united
  rw [StateSet.mem_toList, ← TransitionMatrix.contains, united]

variable (sources : ∀ source, automaton.predecessors.contains absorbed symbol source →
    source < automaton.maxStates)
include sources

/-- The rows of the absorbed state's predecessors get the kept target for the absorbed one. -/
theorem contains_redirectedRows (source : Nat) {other : Nat}
    (otherInAlphabet : other < automaton.alphabetSize) (target : Nat) :
    (((automaton.predecessors.unionRows symbol kept absorbed).row absorbed symbol).toList.foldl
        (fun matrix state => matrix.redirect state symbol absorbed kept)
        automaton.successors).contains source other target =
      if other = symbol then automaton.redirected kept absorbed symbol source target
      else automaton.successors.contains source other target := by
  -- Each source that is listed is redirected once, and only in the layer of the symbol.
  have listed := mem_redirectedSources shaped keptRoom inAlphabet distinct
  have within : ∀ state ∈
      ((automaton.predecessors.unionRows symbol kept absorbed).row absorbed symbol).toList,
      state < automaton.successors.capacity := by
    intro state member
    rw [shaped.successors]
    exact sources state ((listed state).1 member)
  rw [TransitionMatrix.contains_foldl_redirect inAlphabet (by rwa [shaped.successors]) within source
    otherInAlphabet]
  simp only [listed, redirected]
  by_cases named : other = symbol
  · subst named
    simp
  · simp [named]

/-- After a move the kept state has the redirected successors of both states. -/
theorem contains_successors_moveRows (source : Nat) {other : Nat}
    (otherInAlphabet : other < automaton.alphabetSize) (target : Nat) :
    (automaton.moveRows kept absorbed symbol).successors.contains source other target =
      if other = symbol then
        automaton.redirected kept absorbed symbol source target ||
          (decide (source = kept) && automaton.redirected kept absorbed symbol absorbed target)
      else automaton.successors.contains source other target := by
  -- The row of the kept state gains what the absorbed one had, once all is redirected.
  have rows := fun source {other} => @contains_redirectedRows _ _ _ _ shaped keptRoom inAlphabet
    distinct sources source other
  have fits : kept < automaton.successors.capacity := by rwa [shaped.successors]
  rw [successors_moveRows, TransitionMatrix.contains_unionRows (by simpa using fits)
    (by rwa [TransitionMatrix.alphabetSize_foldl_redirect]) absorbed source
    (by rwa [TransitionMatrix.alphabetSize_foldl_redirect]),
    rows kept inAlphabet, rows absorbed inAlphabet, rows source otherInAlphabet]
  by_cases named : other = symbol
  · by_cases same : source = kept
    · simp [named, same]
    · simp [named, same]
  · simp [named]

variable (targets : ∀ target, automaton.redirected kept absorbed symbol absorbed target →
    target < automaton.maxStates)
include targets

/-- After a move the kept state has the predecessors of both states, and leads where both led. -/
theorem contains_predecessors_moveRows (target : Nat) {other : Nat}
    (otherInAlphabet : other < automaton.alphabetSize) (source : Nat) :
    (automaton.moveRows kept absorbed symbol).predecessors.contains target other source =
      if other = symbol then
        if automaton.redirected kept absorbed symbol absorbed target then
          (automaton.united kept absorbed symbol target source || decide (source = kept)) &&
            decide (source ≠ absorbed)
        else automaton.united kept absorbed symbol target source
      else automaton.predecessors.contains target other source := by
  -- The rows to be changed are those of the targets that the absorbed state has by now.
  have listed : ∀ state,
      state ∈ ((automaton.moveRows kept absorbed symbol).successors.row absorbed symbol).toList ↔
        automaton.redirected kept absorbed symbol absorbed state := by
    intro state
    rw [StateSet.mem_toList, ← TransitionMatrix.contains,
      contains_successors_moveRows shaped keptRoom inAlphabet distinct sources absorbed inAlphabet]
    simp [Ne.symm distinct]
  have within : ∀ state ∈
      ((automaton.moveRows kept absorbed symbol).successors.row absorbed symbol).toList,
      state < (automaton.predecessors.unionRows symbol kept absorbed).capacity := by
    intro state member
    rw [TransitionMatrix.capacity_unionRows, shaped.predecessors]
    exact targets state ((listed state).1 member)
  -- Before the redirection the rows of the two states are united.
  have rows := fun target {other} => @contains_united _ kept absorbed _ shaped keptRoom inAlphabet
    target other
  rw [predecessors_moveRows, TransitionMatrix.contains_foldl_redirect
    (by rwa [TransitionMatrix.alphabetSize_unionRows, shaped.alphabet])
    (by rwa [TransitionMatrix.capacity_unionRows, shaped.predecessors]) within target
    (by rwa [TransitionMatrix.alphabetSize_unionRows, shaped.alphabet]),
    rows target inAlphabet, rows target otherInAlphabet]
  simp only [listed, united]
  by_cases named : other = symbol
  · subst named
    by_cases same : target = kept
    · simp [same]
    · simp [same]
  · simp [named]

end Rows

section Layer

variable {states : Finset Nat} {kept absorbed symbol : Nat} {steps : Nat → Nat → Prop}
  (absorbedIn : absorbed ∈ states) (layer : automaton.Layer states symbol steps)
include absorbedIn layer

/-- A redirected row holds the new names of the targets. -/
theorem redirected_iff (distinct : kept ≠ absorbed) {source : Nat} (member : source ∈ states)
    (target : Nat) :
    automaton.redirected kept absorbed symbol source target ↔
      ∃ last, steps source last ∧ standIn kept absorbed last = target := by
  -- The predecessors of the absorbed state are the sources that lead to it.
  rw [exists_standIn, ← layer.predecessors absorbed absorbedIn source,
    ← layer.successors source member target, redirected]
  split
  · rename_i leads
    by_cases same : target = kept
    · simp [same, distinct, leads]
    · simp [same]
  · rename_i avoids
    by_cases same : target = absorbed
    · have mirrored := (layer.successors source member absorbed).trans
        (layer.predecessors absorbed absorbedIn source).symm
      simp [same, mirrored, avoids]
    · simp [same, avoids]

/-- A united row holds the sources of the steps that get the name of its state. -/
theorem united_iff {target : Nat} (member : target ∈ states) (other : target ≠ absorbed)
    (source : Nat) :
    automaton.united kept absorbed symbol target source ↔
      ∃ last, steps source last ∧ standIn kept absorbed last = target := by
  -- The name is that of the state itself or of the absorbed one.
  rw [exists_standIn, ← layer.predecessors absorbed absorbedIn source,
    ← layer.predecessors target member source, united]
  simp [other]

variable (shaped : automaton.Shaped) (within : ∀ state ∈ states, state < automaton.maxStates)
  (keptIn : kept ∈ states) (distinct : kept ≠ absorbed)
  (inAlphabet : symbol < automaton.alphabetSize)
  (closed : ∀ source target, steps source target → source ∈ states ∧ target ∈ states)
include within closed

/-- The absorbed state's predecessors lie below the capacity. -/
theorem sources_lt (source : Nat) (held : automaton.predecessors.contains absorbed symbol source) :
    source < automaton.maxStates :=
  -- They are states that a step leaves.
  within source (closed _ _ ((layer.predecessors absorbed absorbedIn source).1 held)).1

include keptIn distinct

/-- The absorbed state's redirected successors lie below the capacity. -/
theorem targets_lt (target : Nat)
    (held : automaton.redirected kept absorbed symbol absorbed target) :
    target < automaton.maxStates := by
  -- They are states that a step enters, or the kept state.
  have named := (redirected_iff absorbedIn layer distinct absorbedIn target).1 held
  rcases exists_standIn.1 named with ⟨step, _⟩ | ⟨rfl, _⟩
  · exact within target (closed _ _ step).2
  · exact within target keptIn

include shaped inAlphabet

/-- Moving the rows of a symbol renames the steps of this symbol. -/
theorem Layer.moveRows : (automaton.moveRows kept absorbed symbol).Layer (states.erase absorbed)
    symbol (Renamed kept absorbed steps) := by
  -- The layer is renamed in both directions, and the absorbed state is no longer looked at.
  have keptRoom := within kept keptIn
  have sources := sources_lt absorbedIn layer within closed
  have targets := targets_lt absorbedIn layer within keptIn distinct closed
  have fromAbsorbed := redirected_iff absorbedIn layer distinct absorbedIn
  constructor
  -- A source other than the two keeps its row, but for the redirected bit.
  case successors =>
    intro source member target
    obtain ⟨other, old⟩ := Finset.mem_erase.1 member
    rw [contains_successors_moveRows shaped keptRoom inAlphabet distinct sources source inAlphabet,
      if_pos rfl, Bool.or_eq_true, Bool.and_eq_true, fromAbsorbed,
      redirected_iff absorbedIn layer distinct old]
    simp [renamed_iff, other]
  -- Where the absorbed state led to the target, the kept one is a predecessor instead.
  case predecessors =>
    intro target member source
    obtain ⟨other, old⟩ := Finset.mem_erase.1 member
    have united := @united_iff _ _ kept _ _ _ absorbedIn layer _ old other
    rw [contains_predecessors_moveRows shaped keptRoom inAlphabet distinct sources targets target
      inAlphabet, if_pos rfl, renamed_iff, ← united source, ← fromAbsorbed target]
    split
    · rename_i leads
      by_cases same : source = kept
      · simp [same, distinct, leads]
      · simp [same]
    · rename_i avoids
      by_cases same : source = absorbed
      · have mirrored := (united absorbed).trans (fromAbsorbed target).symm
        simp [same, mirrored, avoids]
      · simp [same, avoids]

/-- Moving the rows of a symbol leaves the steps of every other symbol alone. -/
theorem Layer.moveRows_of_ne {all : Finset Nat} {other : Nat} {otherSteps : Nat → Nat → Prop}
    (apart : other ≠ symbol) (otherInAlphabet : other < automaton.alphabetSize)
    (otherLayer : automaton.Layer all other otherSteps) :
    (automaton.moveRows kept absorbed symbol).Layer all other otherSteps := by
  -- No row of another symbol is changed.
  have keptRoom := within kept keptIn
  have sources := sources_lt absorbedIn layer within closed
  have targets := targets_lt absorbedIn layer within keptIn distinct closed
  constructor
  case successors =>
    intro source member target
    rw [contains_successors_moveRows shaped keptRoom inAlphabet distinct sources source
      otherInAlphabet, if_neg apart]
    exact otherLayer.successors source member target
  case predecessors =>
    intro target member source
    rw [contains_predecessors_moveRows shaped keptRoom inAlphabet distinct sources targets target
      otherInAlphabet, if_neg apart]
    exact otherLayer.predecessors target member source

end Layer

/-- The automaton with the rows of the symbols below a number moved. -/
def moveBelow (automaton : Automaton) (kept absorbed count : Nat) : Automaton :=
  Nat.fold count (fun symbol _ moved => moved.moveRows kept absorbed symbol) automaton

/-- Steps are renamed for the symbols below a number, and as they were from there on. -/
structure MovedBelow (automaton : Automaton) (states : Finset Nat) (kept absorbed : Nat)
    (steps : Nat → Nat → Nat → Prop) (count : Nat) (moved : Automaton) : Prop where
  /-- Sets and matrices still fit each other. -/
  shaped : moved.Shaped
  /-- The alphabet is the same. -/
  alphabet : moved.alphabetSize = automaton.alphabetSize
  /-- The slots in use and the flags are the same. -/
  flags : moved.active = automaton.active ∧ moved.initial = automaton.initial ∧
    moved.finals = automaton.finals
  /-- Earlier symbols no longer lead to the absorbed state. -/
  earlier : ∀ symbol < count, moved.Layer (states.erase absorbed) symbol
    (Renamed kept absorbed (steps symbol))
  /-- Later symbols have their old steps. -/
  later : ∀ symbol, count ≤ symbol → symbol < automaton.alphabetSize →
    moved.Layer states symbol (steps symbol)

section MoveBelow

variable {states : Finset Nat} {kept absorbed : Nat} {steps : Nat → Nat → Nat → Prop}
  (within : ∀ state ∈ states, state < automaton.maxStates) (keptIn : kept ∈ states)
  (absorbedIn : absorbed ∈ states) (distinct : kept ≠ absorbed)
  (closed : ∀ symbol source target, steps symbol source target →
    source ∈ states ∧ target ∈ states)
include within keptIn absorbedIn distinct closed

/-- Moving the rows of the next symbol renames its steps as well. -/
theorem MovedBelow.moveRows {count : Nat} {moved : Automaton}
    (before : automaton.MovedBelow states kept absorbed steps count moved)
    (inAlphabet : count < automaton.alphabetSize) :
    automaton.MovedBelow states kept absorbed steps (count + 1)
      (moved.moveRows kept absorbed count) := by
  -- The layers below were renamed before, this one is renamed now, and those above come later.
  have room : ∀ state ∈ states, state < moved.maxStates := by
    intro state member
    rw [maxStates, before.flags.1]
    exact within state member
  have known : count < moved.alphabetSize := by rwa [before.alphabet]
  have layer := before.later count (Nat.le_refl _) inAlphabet
  have others := @Layer.moveRows_of_ne moved states kept absorbed count (steps count) absorbedIn
    layer before.shaped room keptIn distinct known (closed count)
  obtain ⟨active, initial, finals⟩ := flags_moveRows moved kept absorbed count
  constructor
  case shaped => exact before.shaped.moveRows kept absorbed count
  case alphabet =>
    rw [alphabetSize, (shape_successors_moveRows moved kept absorbed count).1]
    exact before.alphabet
  case flags =>
    rw [active, initial, finals]
    exact before.flags
  -- Moving this symbol's rows leaves the layers of all other symbols alone.
  case earlier =>
    intro symbol below
    by_cases last : symbol = count
    · subst last
      exact Layer.moveRows absorbedIn layer before.shaped room keptIn distinct known (closed symbol)
    · exact others last (by rw [before.alphabet]; omega) (before.earlier symbol (by omega))
  case later =>
    intro symbol above symbolKnown
    exact others (by omega) (by rwa [before.alphabet]) (before.later symbol (by omega) symbolKnown)

/-- Moving the rows of some symbols renames the steps of these. -/
theorem movedBelow_moveBelow (shaped : automaton.Shaped)
    (layers : ∀ symbol < automaton.alphabetSize, automaton.Layer states symbol (steps symbol))
    {count : Nat} (bounded : count ≤ automaton.alphabetSize) :
    automaton.MovedBelow states kept absorbed steps count
      (automaton.moveBelow kept absorbed count) := by
  -- The induction takes the symbols in the order of the loop.
  induction count with
  | zero =>
    exact {
      shaped := shaped
      alphabet := rfl
      flags := ⟨rfl, rfl, rfl⟩
      earlier := fun symbol below => absurd below (Nat.not_lt_zero symbol)
      later := fun symbol _ inAlphabet => layers symbol inAlphabet }
  | succ count hypothesis =>
    rw [moveBelow, Nat.fold_succ]
    exact (hypothesis (by omega)).moveRows within keptIn absorbedIn distinct closed (by omega)

end MoveBelow

/-- The flags of the absorbed state go over to the kept one. -/
theorem contains_absorb_iff {set : StateSet} {states : Finset Nat} {kept absorbed : Nat}
    (room : kept < set.capacity) (distinct : kept ≠ absorbed)
    (held : ∀ state, set.contains state ↔ state ∈ states) (state : Nat) :
    (set.absorb kept absorbed).contains state ↔ state ∈ states.image (standIn kept absorbed) := by
  -- The kept state has its own flag or the one it takes over.
  rw [StateSet.contains_absorb room, Finset.mem_image, exists_standIn, ← held, ← held]
  by_cases same : state = kept
  · subst same
    simp [distinct]
  · simp [same]

/-- The name of the kept state is in use, so that one state less is left. -/
theorem image_standIn {states : Finset Nat} {kept absorbed : Nat} (keptIn : kept ∈ states)
    (distinct : kept ≠ absorbed) :
    states.image (standIn kept absorbed) = states.erase absorbed := by
  -- Renaming drops the absorbed state, and the kept one was already there.
  ext state
  rw [Finset.mem_image, exists_standIn, Finset.mem_erase]
  constructor
  · rintro (⟨member, other⟩ | ⟨rfl, _⟩)
    · exact ⟨other, member⟩
    · exact ⟨distinct, keptIn⟩
  · rintro ⟨other, member⟩
    exact .inl ⟨member, other⟩

/-- The transitions after a merge are the renamed ones. -/
theorem mem_transitions_merge {kept absorbed source target symbol : Nat} :
    ⟨source, target, symbol⟩ ∈ (plain.merge kept absorbed).transitions ↔
      Renamed kept absorbed (fun source target => ⟨source, target, symbol⟩ ∈ plain.transitions)
        source target := by
  -- A step of the merged automaton is some old step with both of its ends renamed.
  rw [PlainAutomaton.merge, PlainAutomaton.rename_transitions, Finset.mem_image]
  constructor
  · rintro ⟨⟨first, last, read⟩, member, named⟩
    obtain ⟨start, finish, rfl⟩ := Transition.mk.injEq .. ▸ named
    exact ⟨first, last, member, start, finish⟩
  · rintro ⟨first, last, member, rfl, rfl⟩
    exact ⟨⟨first, last, symbol⟩, member, rfl⟩

/-- The automaton with a slot out of use and its flags handed over, but all rows in place. -/
def handOver (automaton : Automaton) (kept absorbed : Nat) : Automaton :=
  { automaton with
    initial := automaton.initial.absorb kept absorbed
    finals := automaton.finals.absorb kept absorbed
    active := automaton.active.erase absorbed }

/-- A merge hands the flags over and then moves the rows of all symbols. -/
theorem fuse_eq (automaton : Automaton) (kept absorbed : Nat) :
    automaton.fuse kept absorbed = (automaton.handOver kept absorbed).moveBelow kept absorbed
      (automaton.handOver kept absorbed).alphabetSize := rfl

/-- Letting one state stand for another keeps the capacity. -/
theorem capacity_absorb (set : StateSet) (kept absorbed : Nat) :
    (set.absorb kept absorbed).capacity = set.capacity := by
  -- Members are only added and removed.
  rw [StateSet.absorb]
  split
  · rw [StateSet.capacity_insert, StateSet.capacity_erase]
  · rw [StateSet.capacity_erase]

/-- Handing over keeps every capacity and the alphabets. -/
theorem Shaped.handOver (shaped : automaton.Shaped) (kept absorbed : Nat) :
    (automaton.handOver kept absorbed).Shaped := by
  -- Erasing a flag and uniting two leave every set at its size.
  have room : (automaton.handOver kept absorbed).maxStates = automaton.maxStates :=
    StateSet.capacity_erase automaton.active absorbed
  constructor
  case reached => rw [room]; exact shaped.reached
  case initial => rw [room]; exact (capacity_absorb ..).trans shaped.initial
  case finals => rw [room]; exact (capacity_absorb ..).trans shaped.finals
  case predecessors => rw [room]; exact shaped.predecessors
  case successors => rw [room]; exact shaped.successors
  case alphabet => exact shaped.alphabet

/-- Merging gives the absorbed state the name of the kept one. -/
theorem Represents.fuse (represents : automaton.Represents plain) {kept absorbed : Nat}
    (keptIn : kept ∈ plain.active) (absorbedIn : absorbed ∈ plain.active)
    (distinct : kept ≠ absorbed) :
    (automaton.fuse kept absorbed).Represents (plain.merge kept absorbed) := by
  have shaped := represents.shaped
  have keptRoom := represents.lt_maxStates keptIn
  have within : ∀ state ∈ plain.active, state < (automaton.handOver kept absorbed).maxStates := by
    intro state member
    rw [maxStates, Automaton.handOver, StateSet.capacity_erase]
    exact represents.lt_maxStates member
  -- The rows are those of the automaton, so that all its transitions are renamed.
  have layers : ∀ symbol < (automaton.handOver kept absorbed).alphabetSize,
      (automaton.handOver kept absorbed).Layer plain.active symbol
        fun source target => ⟨source, target, symbol⟩ ∈ plain.transitions := by
    intro symbol inAlphabet
    obtain ⟨successors, predecessors⟩ :=
      represents.layers symbol (represents.alphabet ▸ inAlphabet)
    exact ⟨successors, predecessors⟩
  -- Then the rows are moved symbol by symbol.
  have moved := movedBelow_moveBelow within keptIn absorbedIn distinct
    (fun _ _ _ step => ⟨plain.source_active _ step, plain.target_active _ step⟩)
    (shaped.handOver kept absorbed) layers (Nat.le_refl _)
  have names := image_standIn keptIn distinct
  rw [fuse_eq]
  obtain ⟨active, initial, finals⟩ := moved.flags
  constructor
  case shaped => exact moved.shaped
  case alphabet => exact moved.alphabet.trans represents.alphabet
  case active =>
    intro state
    rw [active, Automaton.handOver, StateSet.contains_erase, Bool.and_eq_true, represents.active,
      PlainAutomaton.merge, PlainAutomaton.rename_active, names]
    simp [and_comm]
  case initial =>
    rw [initial]
    exact contains_absorb_iff (by rwa [shaped.initial]) distinct represents.initial
  case finals =>
    rw [finals]
    exact contains_absorb_iff (by rwa [shaped.finals]) distinct represents.finals
  case layers =>
    intro symbol inAlphabet
    have layer := moved.earlier symbol (represents.alphabet ▸ inAlphabet)
    simp only [mem_transitions_merge]
    rwa [PlainAutomaton.merge, PlainAutomaton.rename_active, names]

/-- A merge renames one state to another, or is refused because of the states that it names. -/
theorem Represents.merge (represents : automaton.Represents plain) (kept absorbed : Nat) :
    (kept ∉ plain.active ∧ automaton.merge kept absorbed = ⟨automaton, some (.mergeOnInactive kept)⟩) ∨
    (kept ∈ plain.active ∧ absorbed ∉ plain.active ∧
      automaton.merge kept absorbed = ⟨automaton, some (.mergeOnInactive absorbed)⟩) ∨
    (kept ∈ plain.active ∧ kept = absorbed ∧
      automaton.merge kept absorbed = ⟨automaton, some .mergeWithItself⟩) ∨
    (kept ∈ plain.active ∧ absorbed ∈ plain.active ∧ kept ≠ absorbed ∧
      ∃ merged, automaton.merge kept absorbed = .done merged ∧
        merged.Represents (plain.merge kept absorbed)) := by
  have keptActive := represents.active kept
  have absorbedActive := represents.active absorbed
  rw [Automaton.merge, isActive, isActive]
  -- The tests are made in this order, and each decides about the states themselves.
  by_cases keptIn : kept ∈ plain.active
  · rw [keptActive.2 keptIn, Bool.not_true, if_neg Bool.false_ne_true]
    by_cases absorbedIn : absorbed ∈ plain.active
    · rw [absorbedActive.2 absorbedIn, Bool.not_true, if_neg Bool.false_ne_true]
      by_cases same : kept = absorbed
      · rw [if_pos same]
        exact .inr (.inr (.inl ⟨keptIn, same, rfl⟩))
      · rw [if_neg same]
        exact .inr (.inr (.inr ⟨keptIn, absorbedIn, same, _, rfl,
          represents.fuse keptIn absorbedIn same⟩))
    · rw [Bool.eq_false_iff.2 fun held => absorbedIn (absorbedActive.1 held), Bool.not_false,
        if_pos rfl]
      exact .inr (.inl ⟨keptIn, absorbedIn, rfl⟩)
  · rw [Bool.eq_false_iff.2 fun held => keptIn (keptActive.1 held), Bool.not_false, if_pos rfl]
    exact .inl ⟨keptIn, rfl⟩

/-- A merge of two different states is never refused. -/
theorem Represents.merge_eq_done (represents : automaton.Represents plain) {kept absorbed : Nat}
    (keptIn : kept ∈ plain.active) (absorbedIn : absorbed ∈ plain.active)
    (distinct : kept ≠ absorbed) :
    ∃ merged, automaton.merge kept absorbed = .done merged ∧
      merged.Represents (plain.merge kept absorbed) := by
  -- Each refusal names a state that is not there, or the same state twice.
  rcases represents.merge kept absorbed with ⟨out, _⟩ | ⟨_, out, _⟩ | ⟨_, same, _⟩ |
    ⟨_, _, _, done⟩
  · exact absurd keptIn out
  · exact absurd absorbedIn out
  · exact absurd same distinct
  · exact done

end Automaton

end NfaInduction
