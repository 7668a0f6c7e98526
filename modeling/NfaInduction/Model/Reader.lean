import NfaInduction.FieldLine
import NfaInduction.Model.Basic

/-! A model text is read part by part, and every line that is not a comment counts. -/

namespace NfaInduction

/-- A line that counts, or the failure to read it. -/
abbrev Model.Entry := Except Error FieldLine

namespace Model

/-- The next line, even a blank one, and the lines after it. -/
def nextLine (part : ModelPart) (lineCount : Nat) : List Entry → Except Error (FieldLine × List Entry)
  | [] => .error (.invalidFormat (lineCount + 1) (.missingPart part))
  | entry :: rest => do
    let line ← entry
    return (line, rest)

/-- The next line that is not blank and the lines after it. -/
def nextContent (part : ModelPart) (lineCount : Nat) :
    List Entry → Except Error (FieldLine × List Entry)
  | [] => .error (.invalidFormat (lineCount + 1) (.missingPart part))
  | entry :: rest => do
    let line ← entry
    if line.isBlank then nextContent part lineCount rest else return (line, rest)

/-- The state below the count that a field names. -/
def readState (stateCount : Nat) (line : FieldLine) (field : String) : Except Error Nat := do
  let state ← line.value .state Text.size? field
  if state < stateCount then return state
  line.refuse (.stateBeyondCount state stateCount)

/-- The transition on a line. -/
def readTransition (alphabetSize stateCount : Nat) (line : FieldLine) :
    Except Error Automaton.Transition :=
  match line.fields with
  | [source, target, symbol] => do
    let source ← readState stateCount line source
    let target ← readState stateCount line target
    let symbol ← line.value .symbol Text.symbol? symbol
    -- Both ends were checked as they were read.
    if symbol.toNat < alphabetSize then return ⟨source, target, symbol.toNat⟩
    line.refuse (.symbolOutsideAlphabet symbol alphabetSize)
  | _ => line.refuse .transitionShape

/-- The declared number of transitions on the lines that are not blank. -/
def readTransitions (alphabetSize stateCount declared lineCount : Nat) (entries : List Entry) :
    Except Error (List Automaton.Transition) := do
  let contents := entries.filter (FieldLine.outside FieldLine.isBlank)
  let transitions ← contents.zipIdx.mapM fun (entry, found) => do
    let line ← entry
    -- A line too many is refused as such, whatever stands on it.
    if declared ≤ found then line.refuse (.tooManyTransitions declared)
    readTransition alphabetSize stateCount line
  if contents.length < declared then
    .error (.invalidFormat lineCount (.tooFewTransitions declared contents.length))
  return transitions

/-- Reads a model text up to the first line that cannot be read or is malformed. -/
def ofLines (lines : List Line) : Except Error Model := do
  let lineCount := lines.length
  let entries := (FieldLine.ofLines lines).filter (FieldLine.outside FieldLine.isComment)
  let (line, entries) ← nextContent .alphabetSize lineCount entries
  let alphabetSize ← line.single .alphabetSize
  if !Capacity.fits alphabetSize 0 then line.refuse .alphabetTooLarge
  let (line, entries) ← nextContent .stateCount lineCount entries
  let stateCount ← line.single .stateCount
  if Capacity.maxStates < stateCount then line.refuse .tooManyStates
  if !Capacity.fits alphabetSize stateCount then line.refuse .relationTooLarge
  -- The lines of flags stand in fixed places and may be blank.
  let (line, entries) ← nextLine .initialStates lineCount entries
  let initial ← line.fields.mapM (readState stateCount line)
  let (line, entries) ← nextLine .finalStates lineCount entries
  let finals ← line.fields.mapM (readState stateCount line)
  let (line, entries) ← nextContent .transitionCount lineCount entries
  let declared ← line.single .transitionCount
  let transitions ← readTransitions alphabetSize stateCount declared lineCount entries
  return { alphabetSize, stateCount, initial, finals, transitions }

end Model

namespace Automaton

/-- Reads an automaton from the lines of a model text. -/
def ofModelLines (lines : List Line) : Except Error Automaton :=
  (Model.ofLines lines).map Model.toAutomaton

/-- Reads an automaton from the bytes of a model text. -/
def ofModelBytes (bytes : ByteArray) : Except Error Automaton := ofModelLines (Text.lines bytes)

end Automaton

end NfaInduction
