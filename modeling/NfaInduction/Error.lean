import NfaInduction.Capacity
import NfaInduction.Failure
import NfaInduction.Sample.Basic
import NfaInduction.Text.Numeral

/-! Errors are the ways in which samples, models and committees are refused. -/

namespace NfaInduction

/-- What a field of a line stands for. -/
inductive FieldKind where
  /-- The number of samples in the header of a sample file. -/
  | sampleCount
  /-- The size of the alphabet. -/
  | alphabetSize
  /-- The label of a sample. -/
  | label
  /-- The number of symbols of a sample. -/
  | sampleLength
  /-- A symbol. -/
  | symbol
  /-- The number of states of a model. -/
  | stateCount
  /-- A state. -/
  | state
  /-- The number of transitions of a model. -/
  | transitionCount
deriving DecidableEq

/-- The words for a field. -/
def FieldKind.name : FieldKind → String
  | .sampleCount => "sample count"
  | .alphabetSize => "alphabet size"
  | .label => "label"
  | .sampleLength => "sample length"
  | .symbol => "symbol"
  | .stateCount => "number of states"
  | .state => "state"
  | .transitionCount => "number of transitions"

/-- A part of a model text before its transitions. -/
inductive ModelPart where
  /-- The line with the size of the alphabet. -/
  | alphabetSize
  /-- The line with the number of states. -/
  | stateCount
  /-- The line with the initial states. -/
  | initialStates
  /-- The line with the final states. -/
  | finalStates
  /-- The line with the number of transitions. -/
  | transitionCount
deriving DecidableEq

/-- The words for a part of a model text. -/
def ModelPart.name : ModelPart → String
  | .alphabetSize => "alphabet size"
  | .stateCount => "number of states"
  | .initialStates => "initial states"
  | .finalStates => "final states"
  | .transitionCount => "number of transitions"

/-- What is wrong with a line of a sample file or a model text. -/
inductive Defect where
  /-- The file ends before its header. -/
  | missingHeader
  /-- The header has not exactly two fields. -/
  | headerShape
  /-- An automaton over the alphabet would be too large. -/
  | alphabetTooLarge
  /-- A sample line has no label or no length. -/
  | incompleteSample
  /-- A sample has another number of symbols than its line declares. -/
  | lengthMismatch (declared found : Nat)
  /-- A symbol does not belong to the alphabet. -/
  | symbolOutsideAlphabet (symbol : Symbol) (alphabetSize : Nat)
  /-- A field is not the number that stands in its place. -/
  | invalidField (kind : FieldKind) (field : String)
  /-- The text ends before one of its parts. -/
  | missingPart (part : ModelPart)
  /-- A line has not exactly one field. -/
  | notSingleValue
  /-- There are more states than an automaton may grow to. -/
  | tooManyStates
  /-- An automaton with so many states over the alphabet would be too large. -/
  | relationTooLarge
  /-- A state is not below the number of states. -/
  | stateBeyondCount (state stateCount : Nat)
  /-- There are more transitions than declared. -/
  | tooManyTransitions (declared : Nat)
  /-- A transition has not exactly three fields. -/
  | transitionShape
  /-- There are fewer transitions than declared. -/
  | tooFewTransitions (declared found : Nat)
deriving DecidableEq

/-- What is reported about a defect. -/
def Defect.message : Defect → String
  | .missingHeader => "missing header"
  | .headerShape => "header must be `<count> <alphabet size>`"
  | .alphabetTooLarge => "alphabet size too large"
  | .incompleteSample => "incomplete sample line"
  | .lengthMismatch declared found => s!"declared length {declared} but found {found} symbols"
  | .symbolOutsideAlphabet symbol size =>
    s!"symbol {symbol.toNat} outside alphabet of size {size}"
  | .invalidField kind field => s!"invalid {kind.name}: " ++ Text.quoted field
  | .missingPart part => s!"missing {part.name}"
  | .notSingleValue => "expected a single value"
  | .tooManyStates => s!"number of states must be <= {Capacity.maxStates}"
  | .relationTooLarge => s!"transition relation would exceed {Capacity.maxMatrixBytes} bytes"
  | .stateBeyondCount state count => s!"state {state} must be < {count}"
  | .tooManyTransitions declared => s!"more than {declared} transitions"
  | .transitionShape => "transition must be `<src> <dst> <symbol>`"
  | .tooFewTransitions declared found => s!"expected {declared} transitions but found {found}"

/-- What is wrong with the parts that something was to be made of. -/
inductive ArgumentDefect where
  /-- A sample has a symbol that does not belong to the alphabet. -/
  | symbolBeyondAlphabet (symbol : Symbol) (sample : Sample) (alphabetSize : Nat)
  /-- A committee has no member. -/
  | noMembers
deriving DecidableEq

/-- A sample between brackets. -/
def Sample.shown (sample : Sample) : String :=
  Text.bracketed (sample.map fun symbol => Text.numeral symbol.toNat)

/-- The argument that a defect is in. -/
def ArgumentDefect.argument : ArgumentDefect → String
  | .symbolBeyondAlphabet .. => "samples"
  | .noMembers => "members.len()"

/-- What is reported about a defect. -/
def ArgumentDefect.message : ArgumentDefect → String
  | .symbolBeyondAlphabet symbol sample size =>
    s!"symbol {symbol.toNat} in {sample.shown} must be < {size}"
  | .noMembers => "must be >= 1"

/-- Why samples, a model or a committee were refused. -/
inductive Error where
  /-- The parts do not fit together. -/
  | invalidArgument (defect : ArgumentDefect)
  /-- A line, counted from one, is malformed. -/
  | invalidFormat (line : Nat) (defect : Defect)
  /-- A sample is labeled both positive and negative. -/
  | conflictingSample (sample : Sample)
  /-- A line could not be read. -/
  | input (failure : InputFailure)
deriving DecidableEq

namespace Error

/-- What is reported about an error. -/
def message : Error → String
  | .invalidArgument defect => s!"InvalidArgumentError: {defect.argument}: {defect.message}"
  | .invalidFormat line defect => s!"InvalidFormatError: line {line}: {defect.message}"
  | .conflictingSample sample => s!"ConflictingSampleError: {sample.shown}"
  | .input failure => s!"IoError: {failure.message}"

/-- An error with all its parts named. -/
def inspect : Error → String
  | .invalidArgument defect =>
    "InvalidArgument(InvalidArgumentError \x7b arg: " ++ Text.quoted defect.argument ++
      ", msg: " ++ Text.quoted defect.message ++ " \x7d)"
  | .invalidFormat line defect =>
    s!"InvalidFormat(InvalidFormatError \x7b line: {line}, msg: " ++
      Text.quoted defect.message ++ " \x7d)"
  | .conflictingSample sample =>
    s!"ConflictingSample(ConflictingSampleError \x7b sample: {sample.shown} \x7d)"
  | .input failure => s!"Io({failure.inspect})"

end Error

end NfaInduction
