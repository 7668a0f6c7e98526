import NfaInduction.Proofs.Command.Desk
import NfaInduction.Proofs.Command.Manifest
import NfaInduction.Proofs.Sample.Order

/-! What one model and its drawing contain, and where they are written, is decided before training. -/

namespace NfaInduction

namespace Command

open FileTree (Place)

variable {desk : Desk}

/-- Samples are loaded from a file that reads without error, and the desk stays as it is. -/
theorem carryOut_loadSamples {source : String} {lines : List Line} {file : SampleFile}
    (read : Desk.linesOf desk.tree source = .ok lines) (given : SampleFile.ofLines lines = .ok file)
    (threshold : Level) : carryOut (loadSamples threshold source) desk = (.ok file.samples, desk) := by
  rw [loadSamples, carryOut_announce]
  simp only [carryOut_bind, carryOut_readLines read, carryOut_attempt, given, Except.mapError,
    carryOut_onHost, run_tellAll]
  rfl

/-- A model that is to be trained. -/
structure Assignment where
  /-- How it is trained. -/
  options : TrainOptions
  /-- The samples, in any order. -/
  samples : SampleSet
  /-- Where the random order starts. -/
  seed : UInt64
  /-- The path for the model. -/
  path : String

namespace Assignment

/-- The model that training leads to, wherever it is written. -/
def model (assignment : Assignment) : Except Failure Model :=
  let trained := Training.train (settings assignment.options) assignment.samples
    (KeyStream.ofSeed assignment.seed)
  (trained.mapError ofTraining).map fun (_, session) => session.hypothesis.toModel

/-- Trains the model and writes it and its drawing. -/
def activity (assignment : Assignment) : Attempt (StateM Desk) SampleSet :=
  trainModel assignment.options assignment.samples assignment.path (some assignment.seed)

/-- The model is not changed by sorting the samples before. -/
theorem model_sort (assignment : Assignment) :
    { assignment with samples := assignment.samples.sort }.model = assignment.model := by
  simp only [model, Training.train_eq, Training.Session.start_eq, SampleSet.sort_sort]

/-- Training leaves the samples sorted for the files to be written. -/
theorem carryOut_activity (assignment : Assignment) (desk : Desk) :
    carryOut assignment.activity desk =
      match assignment.model with
      | .error failure => (.error failure, desk)
      | .ok model => carryOut (do
          writeFile assignment.path model.toLines
          writeFile (assignment.path ++ ".dot") model.drawing
          return assignment.samples.sort) desk := by
  -- The training leaves the sorted samples behind, whether or not it ended well.
  have left : ((Training.trainInPlace (settings assignment.options)
      (KeyStream.ofSeed assignment.seed)).run.run assignment.samples) =
        (Training.train (settings assignment.options) assignment.samples
          (KeyStream.ofSeed assignment.seed), assignment.samples.sort) := by
    rw [Training.run_trainInPlace, Training.train_eq]
  simp only [activity, trainModel, pure_bind, left, model]
  rw [carryOut_announce, carryOut_bind, carryOut_attempt]
  cases Training.train (settings assignment.options) assignment.samples
      (KeyStream.ofSeed assignment.seed) with
  | error failure => rfl
  | ok trained =>
    simp only [Except.mapError, Except.map]
    rw [carryOut_bind, carryOut_onHost, run_tellAll]

/-- A model can be trained and there is room for its two files in a tree. -/
structure Succeeds (assignment : Assignment) (tree : FileTree) (model : Model)
    (place drawn : Place) : Prop where
  /-- Training leads to the model. -/
  trained : assignment.model = .ok model
  /-- The model has a place. -/
  placed : tree.placeFor assignment.path = .ok place
  /-- So has its drawing. -/
  drawn : tree.placeFor (assignment.path ++ ".dot") = .ok drawn

/-- A model and its drawing are in their places. -/
structure Stored (tree : FileTree) (model : Model) (place drawn : Place) : Prop where
  /-- The model is there, and nothing else. -/
  lines : tree.find? place = some (Text.ofLines model.toLines).toUTF8
  /-- So is its drawing. -/
  drawing : tree.find? drawn = some (Text.ofLines model.drawing).toUTF8

/-- A model and its drawing are what two paths lead to. -/
def Leaves (tree : FileTree) (path : String) (model drawing : ByteArray) : Prop :=
  tree.contentOf? path = some model ∧ tree.contentOf? (path ++ ".dot") = some drawing

/-- What is stored stays as long as its two files do. -/
theorem Stored.of_find? {tree later : FileTree} {model : Model} {place drawn : Place}
    (stored : Stored tree model place drawn) (same : later.find? place = tree.find? place)
    (again : later.find? drawn = tree.find? drawn) : Stored later model place drawn :=
  ⟨same.trans stored.lines, again.trans stored.drawing⟩

variable {assignment : Assignment} {model : Model} {place drawn : Place}

/-- The drawing of a model is not where the model is. -/
theorem Succeeds.apart {tree : FileTree} (succeeds : assignment.Succeeds tree model place drawn) :
    place ≠ drawn := by
  obtain ⟨directory, name, aims, rfl⟩ := FileTree.exists_aims succeeds.placed
  have short := FileTree.short_of_placeFor succeeds.drawn
  obtain ⟨_, _, rfl⟩ := (aims.append isFileName_drawing short).placeFor_eq_ok.1 succeeds.drawn
  rw [Ne, Place.down_inj]
  intro same
  -- The name of the drawing is longer.
  have lengths := congrArg (fun name => name.toList.length) same
  simp at lengths

/-- Where the directories are the same, a model is trained with the same success. -/
theorem Succeeds.of_same {tree later : FileTree} (same : tree.SameDirectories later)
    (succeeds : assignment.Succeeds tree model place drawn) :
    assignment.Succeeds later model place drawn where
  trained := succeeds.trained
  placed := same.placeFor_eq_ok.2 succeeds.placed
  drawn := same.placeFor_eq_ok.2 succeeds.drawn

/-- What is stored in the places of two paths is read from there. -/
theorem Succeeds.leaves {tree later : FileTree} (succeeds : assignment.Succeeds tree model place drawn)
    (same : tree.SameDirectories later) (stored : Stored later model place drawn) :
    Leaves later assignment.path (Text.ofLines model.toLines).toUTF8
      (Text.ofLines model.drawing).toUTF8 :=
  ⟨FileTree.contentOf?_of_placeFor (same.placeFor_eq_ok.2 succeeds.placed) stored.lines,
    FileTree.contentOf?_of_placeFor (same.placeFor_eq_ok.2 succeeds.drawn) stored.drawing⟩

/-- A model that can be trained is stored with its drawing, and nothing else changes. -/
theorem Succeeds.carryOut (succeeds : assignment.Succeeds desk.tree model place drawn) :
    ∃ later, Command.carryOut assignment.activity desk = (.ok assignment.samples.sort, later) ∧
      Stored later.tree model place drawn ∧
      desk.tree.Changes (fun other => other = place ∨ other = drawn) later.tree := by
  -- Two writes at different places: the second leaves the first file alone.
  obtain ⟨middle, wrote, lines, first⟩ := carryOut_writeFile succeeds.placed model.toLines
  have after := (succeeds.of_same first.directories).drawn
  obtain ⟨later, drew, drawing, second⟩ := carryOut_writeFile after model.drawing
  refine ⟨later, ?_, ⟨?_, drawing⟩, ?_⟩
  · rw [carryOut_activity, succeeds.trained]
    simp only [carryOut_bind, wrote, drew]
    rfl
  · rw [second.others place succeeds.apart, lines]
  · exact (first.mono fun _ => .inl).trans (second.mono fun _ => .inr)

/-- A model that cannot be trained or written ends in a failure, and at most its own file changes. -/
theorem exists_failure (fails : ∀ model place drawn, ¬assignment.Succeeds desk.tree model place drawn) :
    ∃ failure later, Command.carryOut assignment.activity desk = (.error failure, later) ∧
      desk.tree.Changes (fun other => desk.tree.placeFor assignment.path = .ok other) later.tree := by
  -- Training, the model's place and the drawing's place can each be what fails.
  rw [carryOut_activity]
  cases trained : assignment.model with
  | error failure => exact ⟨failure, desk, rfl, .refl _ _⟩
  | ok model =>
    cases placed : desk.tree.placeFor assignment.path with
    | error failure =>
      refine ⟨.file failure, desk, ?_, .refl _ _⟩
      simp only [carryOut_bind, carryOut_writeFile_of_error placed]
    | ok place =>
      obtain ⟨middle, wrote, _, changes⟩ := carryOut_writeFile placed model.toLines
      cases drawn : middle.tree.placeFor (assignment.path ++ ".dot") with
      | error failure =>
        refine ⟨.file failure, middle, ?_, changes.mono fun _ => congrArg Except.ok ∘ Eq.symm⟩
        simp only [carryOut_bind, wrote, carryOut_writeFile_of_error drawn]
      | ok drawn' =>
        exact absurd ⟨trained, placed, changes.directories.placeFor_eq_ok.1 drawn⟩
          (fails model place drawn')

/-- Training ends well exactly if it leads to a model and there is room for its files. -/
theorem carryOut_activity_isOk :
    (∃ samples, (Command.carryOut assignment.activity desk).1 = .ok samples) ↔
    ∃ model place drawn, assignment.Succeeds desk.tree model place drawn := by
  -- Every way of failing ends with an error, so an ending is a success.
  constructor
  · rintro ⟨samples, ended⟩
    by_contra fails
    simp only [not_exists] at fails
    obtain ⟨failure, later, failed, _⟩ := exists_failure fails
    rw [failed] at ended
    cases ended
  · rintro ⟨model, place, drawn, succeeds⟩
    obtain ⟨later, ended, _⟩ := succeeds.carryOut
    exact ⟨_, congrArg Prod.fst ended⟩

/-- A single model is trained on the samples of a file. -/
theorem carryOut_trainSingle {source path : String} {options : TrainOptions} {seed : UInt64}
    {lines : List Line} {file : SampleFile} (read : Desk.linesOf desk.tree source = .ok lines)
    (given : SampleFile.ofLines lines = .ok file) (seeded : options.seed = some seed)
    (coloring : Coloring) :
    Command.carryOut (perform ⟨.trainSingle source path options, coloring⟩) desk =
      let result := Command.carryOut (activity ⟨options, file.samples, seed, path⟩) desk
      (result.1.map fun _ => (), result.2) := by
  simp only [perform, carryOut_bind, carryOut_loadSamples read given, carryOut_discard, seeded,
    activity]

end Assignment

end Command

end NfaInduction
