import NfaInduction.Command.Arguments
import NfaInduction.Command.Draft
import NfaInduction.Command.Path
import NfaInduction.Evaluation.Report
import NfaInduction.Model.Drawing
import NfaInduction.Model.Reader
import NfaInduction.Random.KeyStream
import NfaInduction.Sample.Reader
import NfaInduction.Training.Session

/-! Commands train models from files of samples and evaluate them, on any host. -/

namespace NfaInduction

namespace Command

/-- Why a command did not end well. -/
inductive Failure where
  /-- A file was not opened or created. -/
  | file (failure : FileFailure)
  /-- A line of a manifest could not be read. -/
  | manifest (failure : InputFailure)
  /-- Samples, a model or a committee were refused. -/
  | error (error : Error)
  /-- The samples have symbols that a model does not know. -/
  | alphabetTooSmall (model samples : Nat)
  /-- A precondition was missed. -/
  | fault (fault : Fault)
deriving DecidableEq

/-- How a command ended. -/
structure Outcome where
  /-- Zero, or the number of the kind of failure. -/
  code : UInt8
  /-- What is reported about the failure. -/
  error : Option String
deriving DecidableEq

namespace Failure

/-- A failure with all its parts named. -/
def inspect : Failure → String
  | .file failure => failure.inspect
  | .manifest failure => failure.inspect
  | .error refusal => refusal.inspect
  | .alphabetTooSmall model samples =>
    Text.quoted (s!"model alphabet of size {model} is smaller than " ++
      s!"the sample alphabet of size {samples}")
  | .fault missed => missed.message

/-- How a command ends with a failure. -/
def outcome (failure : Failure) : Outcome :=
  match failure with
  | .fault _ => ⟨101, none⟩
  | _ => ⟨1, some s!"Error: {failure.inspect}"⟩

end Failure

/-- How much is told under some options. -/
def threshold (options : TrainOptions) : Level :=
  if options.verbose then .debug else if options.quiet then .warn else .info

/-- Whether something matters enough to be told. -/
def isTold (threshold level : Level) : Bool :=
  match threshold, level with
  | .debug, _ => true
  | .info, level => level ≠ .debug
  | .warn, level => level = .warn

/-- How training runs under some options. -/
def settings (options : TrainOptions) : Training.Settings where
  showProgress := !options.quiet
  showMerges := options.verbose
  showPossibleMerges := options.verbose
  skipBestSearch := options.skipSearch
  deterministic := options.noRandom

/-- The name of the model with an index. -/
def modelName (index : Nat) : String := s!"automata-{Text.numeral index}.auto"

/-- The lines above the entries of a manifest. -/
def manifestHeader : List String :=
  ["# Classifier manifest", "# Model files, relative to this manifest"]

/-- The entry on a line of a manifest, unless the line is blank or a comment. -/
def manifestEntry? (text : String) : Option String :=
  let entry := Text.trim text
  if entry.isEmpty || entry.toList.head? == some '#' then none else some entry

/-- The entries of a manifest. -/
def manifestEntries (lines : List Line) : Except InputFailure (List String) := do
  let texts ← lines.mapM id
  return texts.filterMap manifestEntry?

section

variable {host : Type → Type} {handle : Type} [Monad host] [Host host handle]

/-- An activity on a host that may fail. -/
abbrev Attempt (host : Type → Type) := ExceptT Failure host

/-- The result of a step that ran on no host, with its failure named. -/
def attempt {ε α : Type} (name : ε → Failure) (result : Except ε α) : Attempt host α :=
  match result with
  | .ok value => pure value
  | .error reason => throw (name reason)

/-- An activity that always succeeds. -/
def onHost {α : Type} (activity : host α) : Attempt host α := ExceptT.lift activity

/-- An activity on a file, which the file system may refuse. -/
def onFile {α : Type} (activity : host (Except FileFailure α)) : Attempt host α := do
  attempt Failure.file (← onHost activity)

/-- Tells what is about to be done, if that matters enough. -/
def announce (threshold : Level) (notice : Notice) : host Unit :=
  if isTold threshold notice.level then Host.announce notice else pure ()

/-- Tells the events that matter enough. -/
def tellAll (threshold : Level) (events : List Event) : host Unit :=
  (events.filter fun event => isTold threshold event.level).forM Host.tell

/-- Writes a file from beginning to end. -/
def writeFile (path : String) (lines : List String) : Attempt host Unit := do
  let file ← onFile (Host.create path)
  discard (onHost (Host.write file (Text.ofLines lines)))

/-- Reads a file of samples. -/
def loadSamples (threshold : Level) (path : String) : Attempt host SampleSet := do
  onHost (announce threshold (.loadingSamples path))
  let lines ← onFile (Host.readLines path)
  let file ← attempt Failure.error (SampleFile.ofLines lines)
  onHost (tellAll threshold file.events)
  return file.samples

/-- Reads a model. -/
def loadModel (path : String) : Attempt host Automaton := do
  onHost (announce .info (.loadingModel path))
  let lines ← onFile (Host.readLines path)
  attempt Failure.error (Automaton.ofModelLines lines)

/-- Names the failure of a training run. -/
def ofTraining : Training.Failure → Failure
  | .error error => .error error
  | .fault fault => .fault fault

/-- Trains a model, writes it and its drawing, and returns the samples as training leaves them. -/
def trainModel (options : TrainOptions) (samples : SampleSet) (path : String)
    (seed : Option UInt64) : Attempt host SampleSet := do
  let seed ← match seed with
    | some seed => pure seed
    | none => onHost Host.entropy
  onHost (announce (threshold options) (.training seed path))
  -- The samples are left sorted, also where training fails.
  let training := Training.trainInPlace (settings options) (KeyStream.ofSeed seed)
  let (trained, samples) := training.run.run samples
  let (events, session) ← attempt ofTraining trained
  onHost (tellAll (threshold options) events)
  let model := session.hypothesis.toModel
  writeFile path model.toLines
  writeFile (path ++ ".dot") model.drawing
  return samples

/--
Trains models from an index on, and adds the names of those that were written to a draft.

All of them are trained on one set of samples, which each leaves behind for the next.
-/
def trainModels (options : TrainOptions) (samples : SampleSet) (directory : String) :
    (index count : Nat) → Draft handle → host (Draft handle × Except Failure Unit)
  | _, 0, draft => pure (draft, .ok ())
  | index, count + 1, draft => do
    let name := modelName index
    -- Every model has a seed of its own, and the seeds wrap around.
    let seed := options.seed.map (· + UInt64.ofNat index)
    let result ← (trainModel options samples (Path.join directory name) seed).run
    match result with
    | .error failure => return (draft, .error failure)
    | .ok samples =>
      let draft ← draft.addLine name
      trainModels options samples directory (index + 1) count draft

/-- Trains models next to a manifest, which lists those that were written. -/
def trainManifest (options : TrainOptions) (samples : SampleSet) (manifest : String)
    (count : Nat) : Attempt host Unit := do
  let file ← onFile (Host.create manifest)
  let empty : Draft handle := Draft.ofFile file
  let draft ← onHost (empty.add (Text.ofLines manifestHeader))
  let (draft, result) ← onHost (trainModels options samples (Path.parent manifest) 0 count draft)
  -- Also after a failure, the manifest lists what there is.
  onHost draft.finish
  attempt id result

/-- Reads the paths of the models that a manifest lists, in its order. -/
def readManifest (manifest : String) : Attempt host (List String) := do
  let lines ← onFile (Host.readLines manifest)
  let entries ← attempt Failure.manifest (manifestEntries lines)
  return entries.map (Path.join (Path.parent manifest))

/-- Refuses a model that does not know every symbol of the samples. -/
def checkAlphabet (samples : SampleSet) (model : Automaton) : Except Failure Unit :=
  if model.alphabetSize < samples.alphabetSize then
    .error (.alphabetTooSmall model.alphabetSize samples.alphabetSize)
  else .ok ()

/-- Puts all samples to a classifier, writes the report and shows the summary. -/
def evaluate (coloring : Coloring) (classifier : Classifier) (samples : SampleSet)
    (report : String) : Attempt host Unit := do
  let trial := Trial.run classifier samples
  match trial.fault with
  -- The lines before the fault are in the file already.
  | some fault =>
    writeFile report (trial.decisions.flatMap Report.decisionLines)
    throw (.fault fault)
  | none =>
    writeFile report (Report.lines trial.decisions)
    let colored ← match coloring with
      | .never => pure false
      | .always => pure true
      | .auto => onHost Host.admitsColor
    let summary := Report.summary colored (Tally.ofDecisions trial.decisions)
    onHost (Host.display (Text.ofLines summary))

/-- Does what there is to do. -/
def perform (invocation : Invocation) : Attempt host Unit := do
  match invocation.action with
  | .trainSingle samples model options =>
    let samples ← loadSamples (threshold options) samples
    discard (trainModel options samples model options.seed)
  | .trainMultiple samples manifest count options =>
    let samples ← loadSamples (threshold options) samples
    trainManifest options samples manifest count
  -- Models are read before samples, so that their errors come first.
  | .testSingle samples model report =>
    let model ← loadModel model
    let samples ← loadSamples .info samples
    attempt id (checkAlphabet samples model)
    evaluate invocation.coloring model.isMatch samples report
  | .testMultiple samples manifest report =>
    let models ← (← readManifest manifest).mapM loadModel
    let samples ← loadSamples .info samples
    attempt id (models.forM (checkAlphabet samples))
    let committee ← attempt Failure.error (Committee.ofMembers models)
    evaluate invocation.coloring committee.accepts samples report

/-- Does what the arguments ask for. -/
def run (arguments : List String) : host Outcome := do
  match Invocation.ofArguments none arguments with
  | .error .help => return ⟨0, none⟩
  | .error .wrong => return ⟨2, none⟩
  | .ok invocation =>
    match ← (perform invocation : Attempt host Unit).run with
    | .ok () => return ⟨0, none⟩
    | .error failure => return failure.outcome

end

end Command

end NfaInduction
