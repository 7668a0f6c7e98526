import NfaInduction.FieldLine
import NfaInduction.Sample.Set
import NfaInduction.Event

/-! A sample file is a header with a count and an alphabet size, and then one sample a line. -/

namespace NfaInduction

/-- What the first line of a sample file declares. -/
structure SampleHeader where
  /-- Number of samples that are said to follow. -/
  declared : Nat
  /-- Number of symbols of the alphabet. -/
  alphabetSize : Nat
deriving DecidableEq

/-- The header on a line. -/
def SampleHeader.ofLine (line : FieldLine) : Except Error SampleHeader :=
  match line.fields with
  | [count, size] => do
    let declared ← line.value .sampleCount Text.size? count
    let alphabetSize ← line.value .alphabetSize Text.size? size
    -- Not even the smallest automaton may be too large for the alphabet.
    if Capacity.fits alphabetSize 0 then return ⟨declared, alphabetSize⟩
    line.refuse .alphabetTooLarge
  | _ => line.refuse .headerShape

/-- A sample over an alphabet with its label. -/
structure LabeledSample (alphabetSize : Nat) where
  /-- What is known about the sample. -/
  label : Label
  /-- The symbols. -/
  sample : Sample
  /-- The sample keeps to the alphabet. -/
  within : sample.Within alphabetSize

namespace LabeledSample

/-- The label that a number stands for. -/
def labelOf (number : Int) : Label := if number = 1 then .positive else .negative

/-- The symbols that fields name, each checked before the next is read. -/
def readSymbols (alphabetSize : Nat) (line : FieldLine) :
    List String → Except Error { sample : Sample // sample.Within alphabetSize }
  | [] => .ok ⟨[], by simp [Sample.Within]⟩
  | field :: rest => do
    let symbol ← line.value .symbol Text.symbol? field
    if below : symbol.toNat < alphabetSize then
      let ⟨sample, within⟩ ← readSymbols alphabetSize line rest
      return ⟨symbol :: sample, by simpa [Sample.Within, below] using within⟩
    else line.refuse (.symbolOutsideAlphabet symbol alphabetSize)

/-- The sample on a line. -/
def ofLine (alphabetSize : Nat) (line : FieldLine) : Except Error (LabeledSample alphabetSize) :=
  match line.fields with
  | label :: length :: symbols => do
    let number ← line.value .label (Text.integer? (UInt64.size / 2)) label
    let declared ← line.value .sampleLength Text.size? length
    -- The length is checked before any symbol is read.
    if symbols.length ≠ declared then line.refuse (.lengthMismatch declared symbols.length)
    let ⟨sample, within⟩ ← readSymbols alphabetSize line symbols
    return ⟨labelOf number, sample, within⟩
  | _ => line.refuse .incompleteSample

/-- The samples with a label, in their order. -/
def labeled {alphabetSize : Nat} (label : Label) (samples : List (LabeledSample alphabetSize)) :
    List Sample :=
  (samples.filter (·.label = label)).map (·.sample)

/-- Samples chosen by their label keep to the alphabet. -/
theorem within_of_mem_labeled {alphabetSize : Nat} {label : Label}
    {samples : List (LabeledSample alphabetSize)} {sample : Sample}
    (member : sample ∈ labeled label samples) : sample.Within alphabetSize := by
  -- Each of them carries its own evidence.
  obtain ⟨source, _, rfl⟩ := List.mem_map.1 member
  exact source.within

end LabeledSample

/-- What was read from a sample file. -/
structure SampleFile where
  /-- Number of samples that the header declares. -/
  declared : Nat
  /-- The samples that were found. -/
  samples : SampleSet
deriving DecidableEq

namespace SampleFile

/-- The numbers of declared and of found samples, where they differ. -/
def countMismatch? (file : SampleFile) : Option (Nat × Nat) :=
  let found := file.samples.size
  if file.declared = found then none else some (file.declared, found)

/-- What there is to tell about a sample file. -/
def events (file : SampleFile) : List Event :=
  (file.countMismatch?.map fun (declared, found) => Event.countMismatch declared found).toList

/-- The samples on the lines behind a header. -/
def ofSamples (header : SampleHeader) (samples : List (LabeledSample header.alphabetSize)) :
    SampleFile where
  declared := header.declared
  samples := {
    alphabetSize := header.alphabetSize
    positives := LabeledSample.labeled .positive samples
    negatives := LabeledSample.labeled .negative samples
    positives_within := fun _ => LabeledSample.within_of_mem_labeled
    negatives_within := fun _ => LabeledSample.within_of_mem_labeled }

/-- Reads a sample file up to the first line that cannot be read or is malformed. -/
def ofLines (lines : List Line) : Except Error SampleFile :=
  match (FieldLine.ofLines lines).filter (FieldLine.outside FieldLine.isBlank) with
  -- A missing header is blamed on the first line, however many blank ones there are.
  | [] => .error (.invalidFormat 1 .missingHeader)
  | first :: rest => do
    let header ← SampleHeader.ofLine (← first)
    let samples ← rest.mapM fun line => do LabeledSample.ofLine header.alphabetSize (← line)
    return ofSamples header samples

/-- Reads a sample file from its bytes. -/
def ofBytes (bytes : ByteArray) : Except Error SampleFile := ofLines (Text.lines bytes)

end SampleFile

end NfaInduction
