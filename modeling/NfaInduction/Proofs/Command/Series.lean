import NfaInduction.Proofs.Command.Assignment
import NfaInduction.Proofs.Training.Outcome

/-! Training a series of models is training each of them alone, with a seed of its own. -/

namespace NfaInduction

namespace Path

/-- What a path ends with, behind its last separator. -/
def fileName (path : String) : String := String.ofList ((parts path.toList).getLastD [])

end Path

/-- The path of a file ends with its name. -/
theorem FileTree.Aims.fileName {tree : FileTree} {path name : String} {directory : FileTree.Place}
    (aims : tree.Aims path directory name) : Path.fileName path = name := by
  obtain ⟨_, _, front, _, split, _⟩ := aims.route
  rw [Path.fileName, split, List.getLastD_concat, String.ofList_toList]

namespace Command

open FileTree (Place)

/-- Models that are trained from one file of samples and listed in a manifest. -/
structure Series where
  /-- The path of the samples. -/
  source : String
  /-- The path of the manifest. -/
  manifest : String
  /-- The number of models. -/
  count : Nat
  /-- How each model is trained. -/
  options : TrainOptions
  /-- The seed of the first model. -/
  seed : UInt64
  /-- When a summary would be colored. -/
  coloring : Coloring

namespace Series

/-- The seed of a model, which wraps around. -/
def seedOf (series : Series) (index : Nat) : UInt64 := series.seed + UInt64.ofNat index

/-- The path of a model, which is next to the manifest. -/
def path (series : Series) (index : Nat) : String :=
  Path.join (Path.parent series.manifest) (modelName index)

/-- Trains all models. -/
def multiple (series : Series) : Invocation :=
  ⟨.trainMultiple series.source series.manifest series.count
    { series.options with seed := some series.seed }, series.coloring⟩

/-- Trains one of the models alone, from a file of samples to a path of its own. -/
def single (series : Series) (index : Nat) (source path : String) : Invocation :=
  ⟨.trainSingle source path { series.options with seed := some (series.seedOf index) },
    series.coloring⟩

/-- One of the models, on the samples of the series. -/
def assignment (series : Series) (samples : SampleSet) (index : Nat) : Assignment :=
  ⟨series.options, samples, series.seedOf index, series.path index⟩

/-- A model is written next to the manifest. -/
theorem assignment_path (series : Series) (samples : SampleSet) (index : Nat) :
    (series.assignment samples index).path = series.path index := by
  rw [assignment]

/-- The options matter for the seed of a model and nothing else. -/
theorem assignment_activity (series : Series) (samples : SampleSet) (index : Nat) :
    trainModel { series.options with seed := some series.seed } samples
      (Path.join (Path.parent series.manifest) (modelName index))
      ((some series.seed).map (· + UInt64.ofNat index)) =
        (series.assignment samples index).activity := by
  rw [assignment, Assignment.activity]
  rfl

/-- No model and no drawing has the name of the manifest. -/
def Apart (series : Series) : Prop :=
  ∀ index < series.count, Path.fileName series.manifest ≠ modelName index ∧
    Path.fileName series.manifest ≠ modelName index ++ ".dot"

variable {series : Series} {samples left : SampleSet} {tree later : FileTree} {index : Nat}
  {model : Model} {place drawn directory : Place} {name : String}

section Places

variable (aims : tree.Aims series.manifest directory name)
include aims

/-- A model has its place in the directory of the manifest. -/
theorem place_eq (placed : tree.placeFor (series.path index) = .ok place) :
    tree.Aims (series.path index) directory (modelName index) ∧
      place = directory.down (modelName index) := by
  -- The manifest and the model have one directory.
  have joined := aims.join (isFileName_modelName index) (FileTree.short_of_placeFor placed)
  obtain ⟨_, _, rfl⟩ := joined.placeFor_eq_ok.1 placed
  exact ⟨joined, rfl⟩

/-- A model and its drawing have their places in the directory of the manifest. -/
theorem places_eq
    (succeeds : (series.assignment samples index).Succeeds tree model place drawn) :
    place = directory.down (modelName index) ∧ drawn = directory.down (modelName index ++ ".dot") := by
  -- The drawing has the name of the model with an ending.
  obtain ⟨_, placed, drawn⟩ := succeeds
  rw [assignment_path] at placed drawn
  obtain ⟨joined, rfl⟩ := place_eq aims placed
  have extended := joined.append isFileName_drawing (FileTree.short_of_placeFor drawn)
  obtain ⟨_, _, rfl⟩ := extended.placeFor_eq_ok.1 drawn
  exact ⟨rfl, rfl⟩

end Places

/-- A model of the series can be trained alone, and its files can be created in a tree. -/
def Possible (series : Series) (samples : SampleSet) (tree : FileTree) (index : Nat) : Prop :=
  ∃ model place drawn, (series.assignment samples index).Succeeds tree model place drawn

/-- A model of the series is stored in a tree that comes from another one. -/
def Has (series : Series) (samples : SampleSet) (tree later : FileTree) (index : Nat) : Prop :=
  ∃ model place drawn, (series.assignment samples index).Succeeds tree model place drawn ∧
    Assignment.Stored later model place drawn

/-- The first models of the series are stored, and a draft of the manifest lists them. -/
structure Progress (series : Series) (samples : SampleSet) (tree : FileTree) (directory : Place)
    (name : String) (index : Nat) (desk : Desk) (draft : Draft Desk.Pen) : Prop where
  /-- No directory was made. -/
  directories : tree.SameDirectories desk.tree
  /-- The models are there. -/
  stored : ∀ earlier < index, series.Has samples tree desk.tree earlier
  /-- The draft is one of the manifest. -/
  file : draft.file.place = directory.down name
  /-- It lists the models. -/
  drafts : desk.Drafts draft (Text.ofLines (manifestLines index))

/-- A model or its drawing takes a place in the directory of the manifest. -/
def Takes (directory : Place) (index : Nat) (place : Place) : Prop :=
  place = directory.down (modelName index) ∨ place = directory.down (modelName index ++ ".dot")

/-- The name of a model or its drawing takes the place. -/
theorem takes_down_iff : Takes directory index (directory.down name) ↔
    name = modelName index ∨ name = modelName index ++ ".dot" := by
  rw [Takes, Place.down_inj, Place.down_inj]

/-- A place is taken by one model only. -/
theorem Takes.unique {other : Nat} (takes : Takes directory index place)
    (again : Takes directory other place) : index = other := by
  rcases takes with rfl | rfl
  · -- No drawing has the name of a model.
    rcases takes_down_iff.1 again with same | same
    · exact modelName_inj.1 same
    · exact absurd same (modelName_ne_drawing index (modelName other))
  · rcases takes_down_iff.1 again with same | same
    · exact absurd same.symm (modelName_ne_drawing other (modelName index))
    · exact drawingName_inj.1 same

/-- A model that is stored stays where other files change. -/
theorem Has.of_changes (aims : tree.Aims series.manifest directory name) {middle : FileTree}
    {changed : Place → Prop} (has : series.Has samples tree middle index)
    (changes : middle.Changes changed later)
    (apart : ∀ place, Takes directory index place → ¬changed place) :
    series.Has samples tree later index := by
  -- Only the two files of the model are looked at.
  obtain ⟨model, place, drawn, succeeds, stored⟩ := has
  obtain ⟨rfl, rfl⟩ := places_eq aims succeeds
  exact ⟨model, _, _, succeeds, stored.of_find? (changes.others _ (apart _ (.inl rfl)))
    (changes.others _ (apart _ (.inr rfl)))⟩

/-- The samples may have been sorted before a model is trained on them. -/
theorem succeeds_of_sort (same : left.sort = samples.sort) {desk : Desk}
    (directories : tree.SameDirectories desk.tree) :
    (series.assignment left index).Succeeds desk.tree model place drawn ↔
      (series.assignment samples index).Succeeds tree model place drawn := by
  -- The model depends on the sorted samples only, and the places on the directories only.
  have models : (series.assignment left index).model = (series.assignment samples index).model := by
    rw [← (series.assignment left index).model_sort, ← (series.assignment samples index).model_sort]
    simp only [assignment, same]
  constructor
  · intro succeeds
    exact ⟨models ▸ succeeds.trained, directories.placeFor_eq_ok.1 succeeds.placed,
      directories.placeFor_eq_ok.1 succeeds.drawn⟩
  · intro succeeds
    exact ⟨models ▸ succeeds.trained, directories.placeFor_eq_ok.2 succeeds.placed,
      directories.placeFor_eq_ok.2 succeeds.drawn⟩

variable {desk : Desk} {draft : Draft Desk.Pen}

/-- One more model is stored and listed, whatever was trained before it. -/
theorem Progress.step (progress : series.Progress samples tree directory name index desk draft)
    (aims : tree.Aims series.manifest directory name) (same : left.sort = samples.sort)
    (apart : ∀ earlier ≤ index, ¬Takes directory earlier (directory.down name))
    (possible : series.Possible samples tree index) :
    ∃ middle longer last,
      carryOut (series.assignment left index).activity desk = (.ok left.sort, middle) ∧
      (draft.addLine (modelName index) : StateM Desk (Draft Desk.Pen)).run middle = (longer, last) ∧
      series.Progress samples tree directory name (index + 1) last longer := by
  obtain ⟨model, place, drawn, succeeds⟩ := possible
  -- The member is trained as if it were alone, and at the places foretold.
  obtain ⟨middle, trained, stored, changes⟩ :=
    ((succeeds_of_sort same progress.directories).2 succeeds).carryOut
  obtain ⟨rfl, rfl⟩ := places_eq aims succeeds
  -- The manifest is none of the files that were written.
  have kept : middle.tree.find? draft.file.place = desk.tree.find? draft.file.place := by
    refine changes.others _ ?_
    rw [progress.file]
    exact apart index (Nat.le_refl index)
  obtain ⟨longer, last, added, file, drafts, listed⟩ :=
    (progress.drafts.of_find? kept).addLine (modelName index)
  rw [progress.file] at listed
  refine ⟨middle, longer, last, trained, added, ?_⟩
  constructor
  case directories =>
    exact (progress.directories.trans changes.directories).trans listed.directories
  case file => exact file.trans progress.file
  case drafts =>
    have lines : manifestLines (index + 1) = manifestLines index ++ [modelName index] := by
      simp [manifestLines, List.range_succ]
    rw [lines, Text.ofLines_concat]
    exact drafts
  case stored =>
    intro earlier before
    -- A model is there because it is the new one, or because the new one has other places.
    have has : series.Has samples tree middle.tree earlier := by
      rcases Nat.lt_succ_iff_lt_or_eq.1 before with before | rfl
      · exact (progress.stored earlier before).of_changes aims changes fun place takes again =>
          Nat.ne_of_lt before (takes.unique again)
      · exact ⟨model, _, _, succeeds, stored⟩
    refine has.of_changes aims listed ?_
    rintro _ takes rfl
    exact apart earlier (Nat.lt_succ_iff.1 before) takes

/-- A model that is not possible ends the series, and the models before it stay. -/
theorem Progress.stuck (progress : series.Progress samples tree directory name index desk draft)
    (aims : tree.Aims series.manifest directory name) (same : left.sort = samples.sort)
    (apart : ¬Takes directory index (directory.down name))
    (impossible : ¬series.Possible samples tree index) :
    ∃ failure later, carryOut (series.assignment left index).activity desk = (.error failure, later) ∧
      series.Progress samples tree directory name index later draft := by
  have fails : ∀ model place drawn,
      ¬(series.assignment left index).Succeeds desk.tree model place drawn :=
    fun model place drawn succeeds => impossible
      ⟨model, place, drawn, (succeeds_of_sort same progress.directories).1 succeeds⟩
  obtain ⟨failure, later, failed, changes⟩ := Assignment.exists_failure fails
  rw [assignment_path] at changes
  -- At most the file of the model itself was written.
  have own : desk.tree.Changes (Takes directory index) later.tree :=
    changes.mono fun place placed =>
      .inl (place_eq aims (progress.directories.placeFor_eq_ok.1 placed)).2
  have kept : later.tree.find? draft.file.place = desk.tree.find? draft.file.place := by
    refine own.others _ ?_
    rw [progress.file]
    exact apart
  refine ⟨failure, later, failed, ?_⟩
  constructor
  case directories => exact progress.directories.trans changes.directories
  case file => exact progress.file
  case drafts => exact progress.drafts.of_find? kept
  case stored =>
    exact fun earlier before => (progress.stored earlier before).of_changes aims own
      fun place takes again => Nat.ne_of_lt before (takes.unique again)

/-- All models are trained, or those before the first one that is not possible. -/
inductive Ending (series : Series) (samples : SampleSet) (tree : FileTree) (total trained : Nat) :
    Except Failure Unit → Prop where
  /-- The last one was trained. -/
  | complete (all : trained = total) : Ending series samples tree total trained (.ok ())
  /-- One of them was not trained, and none after it. -/
  | stopped (few : trained < total) (impossible : ¬series.Possible samples tree trained)
    (failure : Failure) : Ending series samples tree total trained (.error failure)

/-- A series ends well exactly if all its models are possible. -/
theorem Ending.eq_ok_iff {total trained : Nat} {result : Except Failure Unit}
    (ending : series.Ending samples tree total trained result)
    (possible : ∀ earlier < trained, series.Possible samples tree earlier) :
    result = .ok () ↔ ∀ other < total, series.Possible samples tree other := by
  -- Either all models could be trained, or the next one could not.
  cases ending with
  | complete all => exact iff_of_true rfl (all ▸ possible)
  | stopped few impossible failure => exact iff_of_false nofun fun all => impossible (all trained few)

/-- A series is not stopped before a model if that one and all before it are possible. -/
theorem Ending.lt {total trained : Nat} {result : Except Failure Unit}
    (ending : series.Ending samples tree total trained result) (below : index < total)
    (possible : ∀ earlier ≤ index, series.Possible samples tree earlier) : index < trained := by
  -- The first model that is not trained is an impossible one.
  cases ending with
  | complete all => omega
  | stopped _ impossible _ =>
    exact Nat.lt_of_not_le fun stopped => impossible (possible trained stopped)

section Head

variable {options : TrainOptions} {directory : String} {middle last : Desk} {longer : Draft Desk.Pen}

/-- Behind a model that is trained the others are trained on the samples that it leaves behind. -/
theorem run_trainModels_of_ok (count : Nat)
    (trained : carryOut (trainModel options left (Path.join directory (modelName index))
      (options.seed.map (· + UInt64.ofNat index))) desk = (.ok samples, middle))
    (added : (draft.addLine (modelName index) : StateM Desk _).run middle = (longer, last)) :
    (trainModels options left directory index (count + 1) draft : StateM Desk _).run desk =
      (trainModels options samples directory (index + 1) count longer : StateM Desk _).run last := by
  -- The model and its line in the draft come first.
  rw [carryOut] at trained
  rw [trainModels, StateT.run_bind, trained]
  refine (StateT.run_bind _ _ middle).trans ?_
  rw [added]
  rfl

/-- Behind a model that is not trained there is nothing to do. -/
theorem run_trainModels_of_error (count : Nat) {failure : Failure}
    (failed : carryOut (trainModel options left (Path.join directory (modelName index))
      (options.seed.map (· + UInt64.ofNat index))) desk = (.error failure, last)) :
    (trainModels options left directory index (count + 1) draft : StateM Desk _).run desk =
      ((draft, .error failure), last) := by
  -- The failure ends the series, and the draft stays as it was.
  rw [carryOut] at failed
  rw [trainModels, StateT.run_bind, failed]
  rfl

end Head

/-- Models are trained one after the other, as far as they can be. -/
theorem Progress.run (progress : series.Progress samples tree directory name index desk draft)
    (aims : tree.Aims series.manifest directory name) (same : left.sort = samples.sort) (count : Nat)
    (apart : ∀ other < index + count, ¬Takes directory other (directory.down name)) :
    ∃ longer result later trained,
      (trainModels { series.options with seed := some series.seed } left
        (Path.parent series.manifest) index count draft : StateM Desk _).run desk =
          ((longer, result), later) ∧
      series.Progress samples tree directory name trained later longer ∧
      series.Ending samples tree (index + count) trained result := by
  -- Each model leaves the samples sorted, and sorting them again changes nothing for the next.
  induction count generalizing index desk draft left with
  | zero => exact ⟨draft, .ok (), desk, index, rfl, progress, .complete rfl⟩
  | succ count ih =>
    by_cases possible : series.Possible samples tree index
    · obtain ⟨middle, longer, last, trained, added, advanced⟩ :=
        progress.step aims same (fun earlier before => apart earlier (by omega)) possible
      obtain ⟨final, result, later, reached, ran, kept, ending⟩ :=
        ih advanced ((SampleSet.sort_sort left).trans same) fun other below => apart other (by omega)
      rw [← assignment_activity] at trained
      refine ⟨final, result, later, reached, ?_, kept, ?_⟩
      · exact (run_trainModels_of_ok count trained added).trans ran
      · rwa [Nat.add_right_comm] at ending
    · obtain ⟨failure, later, failed, kept⟩ :=
        progress.stuck aims same (apart index (by omega)) possible
      rw [← assignment_activity] at failed
      exact ⟨draft, .error failure, later, index, run_trainModels_of_error count failed, kept,
        .stopped (by omega) possible failure⟩

/-- The first models are stored, and the manifest lists them and nothing else. -/
structure Closed (series : Series) (samples : SampleSet) (tree : FileTree) (place : Place)
    (trained : Nat) (later : FileTree) : Prop where
  /-- No directory was made. -/
  directories : tree.SameDirectories later
  /-- The models are there. -/
  stored : ∀ earlier < trained, series.Has samples tree later earlier
  /-- The manifest lists them. -/
  listed : later.find? place = some (Text.ofLines (manifestLines trained)).toUTF8

/-- Models that are stored were possible. -/
theorem Closed.possible {trained : Nat} (closed : series.Closed samples tree place trained later) :
    ∀ earlier < trained, series.Possible samples tree earlier := by
  -- What is stored was trained and had a place.
  intro earlier before
  obtain ⟨model, place, drawn, succeeds, _⟩ := closed.stored earlier before
  exact ⟨model, place, drawn, succeeds⟩

/-- The manifest is finished whether or not all models were trained. -/
theorem Progress.close (progress : series.Progress samples tree directory name index desk draft)
    (aims : tree.Aims series.manifest directory name)
    (apart : ∀ earlier < index, ¬Takes directory earlier (directory.down name)) :
    ∃ later, (draft.finish : StateM Desk Unit).run desk = ((), later) ∧
      series.Closed samples tree (directory.down name) index later.tree := by
  -- The manifest is written last, and it is none of the files of the models.
  obtain ⟨later, finished, content, changes⟩ := progress.drafts.finish
  rw [progress.file] at content changes
  refine ⟨later, finished, ⟨?_, ?_, content⟩⟩
  · exact progress.directories.trans changes.directories
  · intro earlier before
    refine (progress.stored earlier before).of_changes aims changes ?_
    rintro _ takes rfl
    exact apart earlier before takes

/-- A manifest that can be created lists the models that could be trained in the end. -/
theorem carryOut_trainManifest (placed : desk.tree.placeFor series.manifest = .ok place)
    (apart : series.Apart) (samples : SampleSet) : ∃ result later trained,
      carryOut (trainManifest { series.options with seed := some series.seed } samples
        series.manifest series.count) desk = (result, later) ∧
      series.Closed samples desk.tree place trained later.tree ∧
      series.Ending samples desk.tree series.count trained result := by
  obtain ⟨directory, name, aims, rfl⟩ := FileTree.exists_aims placed
  have beside : ∀ index < series.count, ¬Takes directory index (directory.down name) := by
    intro index below
    rw [takes_down_iff, not_or, ← aims.fileName]
    exact apart index below
  obtain ⟨opened, created, holds, changes⟩ := carryOut_create placed
  have empty : opened.Drafts (Draft.ofFile ⟨directory.down name, 0⟩) "" := ⟨"", holds, rfl⟩
  obtain ⟨headed, start, added, file, drafts, more⟩ := empty.add (Text.ofLines manifestHeader)
  -- The header alone is the manifest of no models.
  have begun : series.Progress samples desk.tree directory name 0 start headed := by
    refine ⟨(changes.trans more).directories, fun earlier before => absurd before (Nat.not_lt_zero _),
      file, ?_⟩
    rwa [String.empty_append] at drafts
  -- Then the models are trained one by one, up to one that fails.
  obtain ⟨longer, result, last, trained, ran, progress, ending⟩ :=
    begun.run aims rfl series.count fun other below => beside other (by omega)
  rw [Nat.zero_add] at ending
  have few : trained ≤ series.count := by
    cases ending with
    | complete all => exact all.le
    | stopped few _ _ => exact few.le
  -- In either case the manifest is flushed when it is closed.
  obtain ⟨later, finished, closed⟩ :=
    progress.close aims fun earlier before => beside earlier (by omega)
  refine ⟨result, later, trained, ?_, closed, ending⟩
  simp only [trainManifest, carryOut_bind, created, carryOut_onHost, added, ran, finished,
    carryOut_attempt]
  cases result <;> rfl

/-- A command ends well on a desk. -/
def EndsWell (invocation : Invocation) (desk : Desk) : Prop :=
  (carryOut (perform invocation) desk).1 = .ok ()

/-- The files that a command leaves on a desk. -/
def after (invocation : Invocation) (desk : Desk) : FileTree :=
  (carryOut (perform invocation) desk).2.tree

/-- The series gets as far as one of its models, if each of them is trained alone. -/
def Gets (series : Series) (desk : Desk) (index : Nat) : Prop :=
  (∃ place, desk.tree.placeFor series.manifest = .ok place) ∧
    ∀ earlier ≤ index, EndsWell (series.single earlier series.source (series.path earlier)) desk

/-- Training the series on a desk does what training its models one by one does. -/
structure Repeats (series : Series) (desk : Desk) : Prop where
  /-- It ends well exactly if there is room for the manifest and each model can be trained alone. -/
  ends : EndsWell series.multiple desk ↔
    (∃ place, desk.tree.placeFor series.manifest = .ok place) ∧ ∀ index < series.count,
      EndsWell (series.single index series.source (series.path index)) desk
  /-- A model and its drawing are those of a training alone, from the same lines on any desk. -/
  same : ∀ index < series.count, series.Gets desk index → ∀ (other : Desk) (source path : String),
    Desk.linesOf other.tree source = Desk.linesOf desk.tree series.source →
    EndsWell (series.single index source path) other → ∃ model drawing,
      Assignment.Leaves (after series.multiple desk) (series.path index) model drawing ∧
      Assignment.Leaves (after (series.single index source path) other) path model drawing
  /-- What is read from the manifest in the end are the paths of the models in order. -/
  listed : EndsWell series.multiple desk →
    (carryOut (readManifest series.manifest) (carryOut (perform series.multiple) desk).2).1 =
      .ok ((List.range series.count).map series.path)

/-- The paths of the models are read from a manifest that lists them. -/
theorem carryOut_readManifest (placed : desk.tree.placeFor series.manifest = .ok place) {count : Nat}
    (listed : desk.tree.find? place = some (Text.ofLines (manifestLines count)).toUTF8) :
    (carryOut (readManifest series.manifest) desk).1 = .ok ((List.range count).map series.path) := by
  -- The lines of the manifest are those that were written, and no other line is an entry.
  have read : Desk.linesOf desk.tree series.manifest =
      .ok (Text.lines (Text.ofLines (manifestLines count)).toUTF8) := by
    rw [Desk.linesOf, bind_of_ok (FileTree.locate_of_placeFor placed listed), listed]
    rfl
  simp only [readManifest, carryOut_bind, carryOut_readLines read, carryOut_attempt,
    manifestEntries_manifestLines, Except.mapError]
  rw [List.map_map]
  rfl

section Repetition

variable {lines : List Line} {file : SampleFile} (given : SampleFile.ofLines lines = .ok file)
include given

/-- Training one of the models alone is what its assignment says. -/
theorem carryOut_single {source : String} (read : Desk.linesOf desk.tree source = .ok lines)
    (series : Series) (index : Nat) (path : String) :
    carryOut (perform (series.single index source path)) desk =
      let result := carryOut
        { series.assignment file.samples index with path := path }.activity desk
      (result.1.map fun _ => (), result.2) :=
  Assignment.carryOut_trainSingle read given rfl series.coloring

/-- One of the models can be trained alone if it is possible on the samples of the file. -/
theorem endsWell_single_iff {source : String} (read : Desk.linesOf desk.tree source = .ok lines)
    (path : String) : EndsWell (series.single index source path) desk ↔ ∃ model place drawn,
      { series.assignment file.samples index with path := path }.Succeeds desk.tree model place
        drawn := by
  rw [EndsWell, carryOut_single given read, ← Assignment.carryOut_activity_isOk, map_eq_ok]
  simp

/-- A stored model is what training it alone leaves behind, on any desk and at any path. -/
theorem Closed.leaves_single {trained : Nat}
    (closed : series.Closed file.samples tree place trained later) (reached : index < trained)
    {other : Desk} {source path : String} (copy : Desk.linesOf other.tree source = .ok lines)
    (ends : EndsWell (series.single index source path) other) : ∃ model drawing,
      Assignment.Leaves later (series.path index) model drawing ∧
      Assignment.Leaves (after (series.single index source path) other) path model drawing := by
  obtain ⟨model, _, _, succeeds, stored⟩ := closed.stored index reached
  obtain ⟨again, _, _, repeated⟩ := (endsWell_single_iff given copy path).1 ends
  obtain ⟨rest, done, kept, changes⟩ := repeated.carryOut
  -- Where a model is written has no influence on it.
  obtain rfl : model = again := Except.ok.inj (succeeds.trained.symm.trans repeated.trained)
  have leaves := succeeds.leaves closed.directories stored
  rw [assignment_path] at leaves
  refine ⟨_, _, leaves, ?_⟩
  rw [after, carryOut_single given copy, done]
  exact repeated.leaves changes.directories kept

variable (read : Desk.linesOf desk.tree series.source = .ok lines)
include read

/-- Training the series is training on the samples of the file. -/
theorem carryOut_multiple : carryOut (perform series.multiple) desk =
    carryOut (trainManifest { series.options with seed := some series.seed } file.samples
      series.manifest series.count) desk := by
  simp only [perform, multiple, carryOut_bind, carryOut_loadSamples read given]

/-- Models that are trained in a series are the same as if each had been trained alone. -/
theorem repeats_single (apart : series.Apart) : series.Repeats desk := by
  have alone : ∀ index, EndsWell (series.single index series.source (series.path index)) desk ↔
      series.Possible file.samples desk.tree index :=
    fun index => endsWell_single_iff given read (series.path index)
  cases placed : desk.tree.placeFor series.manifest with
  | error failure =>
    -- Without a manifest nothing is trained.
    have failed : ¬EndsWell series.multiple desk := by
      rw [EndsWell, carryOut_multiple given read, trainManifest, carryOut_bind,
        carryOut_create_of_error placed]
      exact nofun
    have nowhere : ¬∃ place, desk.tree.placeFor series.manifest = .ok place := by
      rw [placed]
      exact nofun
    exact ⟨iff_of_false failed fun both => nowhere both.1, fun _ _ gets => absurd gets.1 nowhere,
      fun ends => absurd ends failed⟩
  | ok place =>
    -- The run ends with some number of models, all of them stored.
    obtain ⟨result, later, trained, ran, closed, ending⟩ :=
      carryOut_trainManifest placed apart file.samples
    rw [← carryOut_multiple given read] at ran
    have left : after series.multiple desk = later.tree := by rw [after, ran]
    constructor
    case ends =>
      rw [EndsWell, ran, ending.eq_ok_iff closed.possible]
      simp only [alone, placed, Except.ok.injEq, exists_eq', true_and]
    case same =>
      intro index below gets other source path copy ends
      have reached : index < trained :=
        ending.lt below fun earlier before => (alone earlier).1 (gets.2 earlier before)
      rw [left]
      exact closed.leaves_single given reached (copy.trans read) ends
    case listed =>
      rw [EndsWell, ran]
      intro ended
      cases ending with
      | stopped _ _ failure => cases ended
      | complete all =>
        -- Nothing failed, so every name is in the manifest.
        obtain rfl := all
        exact carryOut_readManifest (closed.directories.placeFor_eq_ok.2 placed) closed.listed

end Repetition

/-- Lines of a file with two positive samples, the longer one first, and two negative ones. -/
def squareLines : List String := ["4 2", "1 2 0 1", "1 1 1", "0 0", "0 1 0"]

/-- A desk with nothing on it but the file. -/
def squareDesk : Desk := ⟨.ofFiles [(["samples.txt"], (Text.ofLines squareLines).toUTF8)], ""⟩

/-- Two models, the seeds of which are the last one of all and the first one. -/
def squareSeries : Series where
  source := "samples.txt"
  manifest := "models.txt"
  count := 2
  options := ⟨false, false, none, false, true⟩
  seed := 18446744073709551615
  coloring := .never

/-- Both models are trained, each as it would be alone on samples that nobody has sorted. -/
theorem repeats_single_square :
    squareSeries.Repeats squareDesk ∧ EndsWell squareSeries.multiple squareDesk := by
  -- The samples are read from their text, and all else is computed.
  have placed : squareDesk.tree.placeFor squareSeries.source = .ok ⟨0, ["samples.txt"]⟩ := by
    decide +kernel
  have there : squareDesk.tree.find? ⟨0, ["samples.txt"]⟩ =
      some (Text.ofLines squareLines).toUTF8 := rfl
  have read : Desk.linesOf squareDesk.tree squareSeries.source = .ok (squareLines.map .ok) := by
    rw [Desk.linesOf, bind_of_ok (FileTree.locate_of_placeFor placed there), there,
      ← Text.lines_ofLines (by decide)]
    rfl
  have given : SampleFile.ofLines (squareLines.map .ok) = .ok ⟨4, Training.sampleSquare⟩ := by
    decide +kernel
  have apart : squareSeries.Apart := by
    unfold Apart
    decide +kernel
  have repeated := repeats_single given read apart
  have trained : ∀ index < 2, (squareSeries.assignment Training.sampleSquare index).model.isOk := by
    simp only [Assignment.model, assignment, Training.train_eq, Training.start_square]
    decide +kernel
  have places : ∀ index < 2, (squareDesk.tree.placeFor (squareSeries.path index)).isOk ∧
      (squareDesk.tree.placeFor (squareSeries.path index ++ ".dot")).isOk := by
    decide +kernel
  have room : (squareDesk.tree.placeFor squareSeries.manifest).isOk := by decide +kernel
  refine ⟨repeated, repeated.ends.2 ⟨exists_of_isOk room, fun index below => ?_⟩⟩
  obtain ⟨model, made⟩ := exists_of_isOk (trained index below)
  obtain ⟨place, found⟩ := exists_of_isOk (places index below).1
  obtain ⟨drawn, free⟩ := exists_of_isOk (places index below).2
  exact (endsWell_single_iff given read _).2 ⟨model, place, drawn, made, found, free⟩

end Series

end Command

end NfaInduction
