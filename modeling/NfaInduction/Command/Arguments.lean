import NfaInduction.Text.Numeral

/-! Arguments name an action, the files that it works on, and the options that it works under. -/

namespace NfaInduction

namespace Command

/-- When the summary is colored. -/
inductive Coloring where
  /-- In no case. -/
  | never
  /-- In every case. -/
  | always
  /-- Where the environment admits it. -/
  | auto
deriving DecidableEq

/-- Options of training. -/
structure TrainOptions where
  /-- Whether the first partner is taken instead of the best one. -/
  skipSearch : Bool
  /-- Whether new states are examined in the order of their path. -/
  noRandom : Bool
  /-- Seed of the random order. -/
  seed : Option UInt64
  /-- Whether every considered and every committed merge is told. -/
  verbose : Bool
  /-- Whether progress is not told. -/
  quiet : Bool
deriving DecidableEq

/-- What there is to do. -/
inductive Action where
  /-- Trains one model. -/
  | trainSingle (samples model : String) (options : TrainOptions)
  /-- Trains a number of models and lists them in a manifest. -/
  | trainMultiple (samples manifest : String) (count : Nat) (options : TrainOptions)
  /-- Evaluates one model. -/
  | testSingle (samples model report : String)
  /-- Evaluates the majority of the models in a manifest. -/
  | testMultiple (samples manifest report : String)
deriving DecidableEq

/-- An action and how its summary is shown. -/
structure Invocation where
  /-- What there is to do. -/
  action : Action
  /-- When the summary is colored. -/
  coloring : Coloring
deriving DecidableEq

/-- Why arguments do not lead to an action. -/
inductive Stop where
  /-- Help is asked for. -/
  | help
  /-- The arguments are wrong. -/
  | wrong
deriving DecidableEq

/-- The names of the actions. -/
inductive ActionName where
  /-- Training of one model. -/
  | trainSingle
  /-- Training of several models. -/
  | trainMultiple
  /-- Evaluation of one model. -/
  | testSingle
  /-- Evaluation of several models. -/
  | testMultiple
deriving DecidableEq

namespace ActionName

/-- The action that a word names. -/
def ofString? : String → Option ActionName
  | "train_single" => some .trainSingle
  | "train_multiple" => some .trainMultiple
  | "test_single" => some .testSingle
  | "test_multiple" => some .testMultiple
  | _ => none

/-- Whether the options of training may be given. -/
def trains : ActionName → Bool
  | .trainSingle | .trainMultiple => true
  | .testSingle | .testMultiple => false

/-- Number of arguments that are not options. -/
def places : ActionName → Nat
  | .trainSingle => 2
  | .trainMultiple | .testSingle | .testMultiple => 3

end ActionName

/-- What the arguments of an action hold. -/
structure Collected where
  /-- Arguments that are not options, in order. -/
  places : List String := []
  /-- The coloring that was chosen. -/
  coloring : Option Coloring := none
  /-- The seed that was chosen. -/
  seed : Option UInt64 := none
  /-- Options without a value. -/
  flags : List String := []

/-- The coloring that a word names. -/
def coloringOf? : String → Option Coloring
  | "never" => some .never
  | "always" => some .always
  | "auto" => some .auto
  | _ => none

/-- Whether an argument looks like an option, which the sign alone does not. -/
def looksLikeOption (argument : String) : Bool :=
  match argument.toList with
  | '-' :: _ :: _ => true
  | _ => false

/-- The name of a long option and the value attached to it. -/
def splitAttached (option : String) : String × Option String :=
  let name := option.toList.takeWhile (· != '=')
  match option.toList.drop name.length with
  | [] => (option, none)
  | _ :: value => (String.ofList name, some (String.ofList value))

namespace Collected

/-- Adds an option without a value, which may be given once. -/
def addFlag (name : String) (collected : Collected) : Except Stop Collected :=
  if collected.flags.contains name then .error .wrong
  else .ok { collected with flags := name :: collected.flags }

/-- Adds an option with a value, which may be given once. -/
def addValue (action : ActionName) (name value : String) (collected : Collected) :
    Except Stop Collected :=
  match name, coloringOf? value, Text.size? value with
  -- A value that does not parse is as wrong as an option that nobody knows.
  | "--color", some coloring, _ =>
    if collected.coloring.isSome then .error .wrong
    else .ok { collected with coloring := some coloring }
  | "--seed", _, some seed =>
    if collected.seed.isSome || !action.trains then .error .wrong
    else .ok { collected with seed := some (UInt64.ofNat seed) }
  | _, _, _ => .error .wrong

/-- Adds an argument that is not an option. -/
def addPlace (action : ActionName) (collected : Collected) (argument : String) :
    Except Stop Collected :=
  let place := collected.places.length
  if place ≥ action.places then .error .wrong
  -- The third place is a number and not a path.
  else if action = .trainMultiple && place = 2 then
    match Text.size? argument with
    | some _ => .ok { collected with places := collected.places ++ [argument] }
    | none => .error .wrong
  else if argument.isEmpty then .error .wrong
  else .ok { collected with places := collected.places ++ [argument] }

/-- Adds options that are written as one letter each behind a common sign. -/
def addLetters (action : ActionName) (collected : Collected) : List Char → Except Stop Collected
  | [] => .ok collected
  | letter :: rest =>
    -- Help is asked for even by an action that has no flags.
    if letter = 'h' then .error .help
    else if !action.trains then .error .wrong
    else do
      let name ← match letter with
        | 'v' => .ok "--verbose"
        | 'q' => .ok "--quiet"
        | _ => .error .wrong
      let collected ← collected.addFlag name
      collected.addLetters action rest

/-- Options of training that stand alone. -/
def trainFlags : List String := ["--skip-search", "--no-random", "--verbose", "--quiet"]

/-- Adds the arguments of an action from left to right. -/
def addAll (action : ActionName) (collected : Collected) (arguments : List String) :
    Except Stop Collected :=
  match arguments with
  | [] => .ok collected
  -- Behind the separator nothing is an option any more.
  | "--" :: rest => rest.foldlM (addPlace action) collected
  | "--help" :: _ => .error .help
  | argument :: rest =>
    if argument.startsWith "--" then
      match splitAttached argument with
      | (name, some value) => do
        let collected ← collected.addValue action name value
        collected.addAll action rest
      | (name, none) =>
        if action.trains && trainFlags.contains name then do
          let collected ← collected.addFlag name
          collected.addAll action rest
        else
          match rest with
          | value :: rest =>
            if looksLikeOption value then .error .wrong
            else do
              let collected ← collected.addValue action name value
              collected.addAll action rest
          | [] => .error .wrong
    else if looksLikeOption argument then do
      let collected ← collected.addLetters action (argument.toList.drop 1)
      collected.addAll action rest
    else do
      let collected ← collected.addPlace action argument
      collected.addAll action rest
termination_by arguments.length

/-- Options of training. -/
def trainOptions (collected : Collected) : TrainOptions where
  skipSearch := collected.flags.contains "--skip-search"
  noRandom := collected.flags.contains "--no-random"
  seed := collected.seed
  verbose := collected.flags.contains "--verbose"
  quiet := collected.flags.contains "--quiet"

/-- The action, if every place is taken. -/
def action? (name : ActionName) (collected : Collected) : Option Action :=
  let options := collected.trainOptions
  match name, collected.places with
  | .trainSingle, [samples, model] => some (.trainSingle samples model options)
  | .trainMultiple, [samples, manifest, count] =>
    (Text.size? count).map fun count => .trainMultiple samples manifest count options
  | .testSingle, [samples, model, report] => some (.testSingle samples model report)
  | .testMultiple, [samples, manifest, report] => some (.testMultiple samples manifest report)
  | _, _ => none

end Collected

namespace Invocation

/-- The invocation that the arguments behind the name of an action make. -/
def ofAction (coloring : Option Coloring) (name : ActionName) (arguments : List String) :
    Except Stop Invocation := do
  let collected ← Collected.addAll name {} arguments
  match collected.action? name with
  | none => .error .wrong
  | some action =>
    -- A coloring chosen behind the action counts more than one chosen before it.
    .ok ⟨action, ((collected.coloring <|> coloring).getD .auto)⟩

/-- What follows the word that asks for help. -/
def ofHelp : List String → Stop
  | [] => .help
  | ["help"] => .help
  | [name] => if (ActionName.ofString? name).isSome then .help else .wrong
  | _ => .wrong

/-- The coloring that a word names, where none was chosen before. -/
def choose? (chosen : Option Coloring) (value : String) : Option Coloring :=
  if chosen.isSome then none else coloringOf? value

/-- The invocation that arguments make. -/
def ofArguments (coloring : Option Coloring) (arguments : List String) :
    Except Stop Invocation :=
  match arguments with
  | [] => .error .wrong
  | "--help" :: _ => .error .help
  | "help" :: rest => .error (ofHelp rest)
  | "--color" :: value :: rest =>
    match choose? coloring value with
    | some chosen => ofArguments (some chosen) rest
    | none => .error .wrong
  -- What is no option has to be the name of an action.
  | argument :: rest =>
    match ActionName.ofString? argument, splitAttached argument with
    | some name, _ => ofAction coloring name rest
    | none, ("--color", some value) =>
      match choose? coloring value with
      | some chosen => ofArguments (some chosen) rest
      | none => .error .wrong
    | none, _ => if argument.startsWith "-h" then .error .help else .error .wrong
termination_by arguments.length

end Invocation

end Command

end NfaInduction
