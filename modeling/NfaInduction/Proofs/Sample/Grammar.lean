import NfaInduction.Proofs.Model.Grammar
import NfaInduction.Proofs.Text.Line
import NfaInduction.Sample.Reader

/-! A sample file is read exactly if its lines follow the grammar, and then as what they list. -/

namespace NfaInduction

/-- What the lines of a sample file list. -/
structure SampleListing where
  /-- Number of samples that the header declares. -/
  declared : Nat
  /-- Number of symbols of the alphabet. -/
  alphabetSize : Nat
  /-- The samples, each behind the number that labels it. -/
  rows : List (Int × Sample)
deriving DecidableEq

namespace SampleListing

/-- The samples labeled by the number one. -/
def positives (listing : SampleListing) : List Sample :=
  (listing.rows.filter fun row => row.1 = 1).map (·.2)

/-- The samples labeled by any other number. -/
def negatives (listing : SampleListing) : List Sample :=
  (listing.rows.filter fun row => row.1 ≠ 1).map (·.2)

/-- A line is a header if its two fields are a number of samples and the size of an alphabet. -/
def HoldsHeader (text : String) (declared alphabetSize : Nat) : Prop :=
  ∃ count size, Text.fields text = [count, size] ∧ Text.size? count = some declared ∧
    Text.size? size = some alphabetSize

/-- A field names a symbol of an alphabet. -/
def NamesSymbol (alphabetSize : Nat) (field : String) (symbol : Symbol) : Prop :=
  Text.symbol? field = some symbol ∧ symbol.toNat < alphabetSize

/-- A line holds a sample if its fields are a label, a length and as many symbols of the alphabet. -/
def HoldsSample (alphabetSize : Nat) (text : String) (row : Int × Sample) : Prop :=
  ∃ label length symbols, Text.fields text = label :: length :: symbols ∧
    Text.integer? (UInt64.size / 2) label = some row.1 ∧
    Text.size? length = some symbols.length ∧
    List.Forall₂ (NamesSymbol alphabetSize) symbols row.2

/-- The lines of a text describe a listing if they follow the grammar of sample files. -/
inductive Describes (texts : List String) (listing : SampleListing) : Prop where
  /-- Blank lines do not count. The first of the others is the header, and each behind it holds a sample. -/
  | intro {first : String} {rest : List String}
      (lines : texts.filter (!Text.isBlankLine ·) = first :: rest)
      (header : HoldsHeader first listing.declared listing.alphabetSize)
      (alphabetSmall : Model.SmallEnough listing.alphabetSize 0)
      (rows : List.Forall₂ (HoldsSample listing.alphabetSize) rest listing.rows)

end SampleListing

open SampleListing (HoldsHeader NamesSymbol HoldsSample Describes)

/-- A header is read from a line that holds one, if the alphabet is small enough. -/
theorem SampleHeader.ofLine_eq_ok {number : Nat} {text : String} {header : SampleHeader} :
    ofLine ⟨number, Text.fields text⟩ = .ok header ↔
      HoldsHeader text header.declared header.alphabetSize ∧
        Model.SmallEnough header.alphabetSize 0 := by
  -- The line has two fields, and the numbers in them have to be those of a small alphabet.
  rw [ofLine]
  constructor
  · intro read
    split at read
    · rename_i count size shape
      obtain ⟨declared, countRead, read⟩ := bind_eq_ok.1 read
      obtain ⟨alphabetSize, sizeRead, read⟩ := bind_eq_ok.1 read
      obtain ⟨fits, same⟩ := accepted_eq_ok.1 read
      subst same
      exact ⟨⟨count, size, shape, FieldLine.value_eq_ok.1 countRead, FieldLine.value_eq_ok.1 sizeRead⟩,
        Model.fits_iff.1 fits⟩
    · cases read
  · intro holds
    obtain ⟨⟨count, size, shape, counted, sized⟩, small⟩ := holds
    dsimp only
    rw [shape]
    refine bind_eq_ok.2 ⟨_, FieldLine.value_eq_ok.2 counted, bind_eq_ok.2 ⟨_,
      FieldLine.value_eq_ok.2 sized, ?_⟩⟩
    exact accepted_eq_ok.2 ⟨Model.fits_iff.2 small, rfl⟩

namespace LabeledSample

variable {alphabetSize : Nat}

/-- Symbols are read from fields that name them. -/
theorem readSymbols_eq_ok {line : FieldLine} {fields : List String}
    {result : { sample : Sample // sample.Within alphabetSize }} :
    readSymbols alphabetSize line fields = .ok result ↔
      List.Forall₂ (NamesSymbol alphabetSize) fields result.1 := by
  -- The induction is on the fields, for any sample that is read from them.
  obtain ⟨sample, within⟩ := result
  induction fields generalizing sample with
  | nil =>
    rw [readSymbols, List.forall₂_nil_left_iff]
    constructor
    · intro read
      cases read
      rfl
    · intro none
      cases none
      rfl
  | cons field rest ih =>
    rw [readSymbols, bind_eq_ok]
    constructor
    · intro read
      obtain ⟨symbol, named, read⟩ := read
      split at read
      · rename_i below
        obtain ⟨⟨others, othersWithin⟩, later, done⟩ := bind_eq_ok.1 read
        cases done
        exact .cons ⟨FieldLine.value_eq_ok.1 named, below⟩ ((ih others othersWithin).1 later)
      · cases read
    · intro named
      cases named with
      | cons first later =>
        -- The symbols behind the first one are checked and read by themselves.
        obtain ⟨parsed, below⟩ := first
        refine ⟨_, FieldLine.value_eq_ok.2 parsed, ?_⟩
        rw [dif_pos below]
        exact bind_eq_ok.2 ⟨_, (ih _ within.of_cons.2).2 later, rfl⟩

/-- A labeled sample has what stands on a row: the sample and the label that its number stands for. -/
def Has (labeled : LabeledSample alphabetSize) (row : Int × Sample) : Prop :=
  labeled.sample = row.2 ∧ labeled.label = labelOf row.1

/-- A sample is read from a line that holds a row which the sample has. -/
theorem ofLine_eq_ok {number : Nat} {text : String} {labeled : LabeledSample alphabetSize} :
    ofLine alphabetSize ⟨number, Text.fields text⟩ = .ok labeled ↔
      ∃ row, HoldsSample alphabetSize text row ∧ labeled.Has row := by
  -- The fields are read from left to right, each of them behind those before it.
  rw [ofLine]
  constructor
  · intro read
    split at read
    · rename_i label length symbols shape
      obtain ⟨mark, labelRead, read⟩ := bind_eq_ok.1 read
      obtain ⟨declared, lengthRead, read⟩ := bind_eq_ok.1 read
      obtain ⟨whole, read⟩ := check_eq_ok.1 read
      obtain ⟨⟨sample, within⟩, symbolsRead, done⟩ := bind_eq_ok.1 read
      cases done
      obtain rfl : symbols.length = declared := Decidable.not_not.1 whole
      exact ⟨(mark, sample), ⟨label, length, symbols, shape, FieldLine.value_eq_ok.1 labelRead,
        FieldLine.value_eq_ok.1 lengthRead, readSymbols_eq_ok.1 symbolsRead⟩, rfl, rfl⟩
    · cases read
  · -- In the other direction each field is read as what it names.
    intro holds
    obtain ⟨⟨mark, _⟩, ⟨label, length, symbols, shape, marked, counted, named⟩, rfl, same⟩ := holds
    obtain ⟨_, sample, within⟩ := labeled
    dsimp only at same ⊢
    subst same
    rw [shape]
    refine bind_eq_ok.2 ⟨_, FieldLine.value_eq_ok.2 marked, bind_eq_ok.2 ⟨_,
      FieldLine.value_eq_ok.2 counted, check_eq_ok.2 ⟨not_not.2 rfl, ?_⟩⟩⟩
    exact bind_eq_ok.2 ⟨⟨sample, within⟩, readSymbols_eq_ok.2 named, rfl⟩

/-- Symbols that fields name keep to the alphabet. -/
theorem within_of_names {fields : List String} {sample : Sample}
    (named : List.Forall₂ (NamesSymbol alphabetSize) fields sample) : sample.Within alphabetSize := by
  intro symbol member
  -- Each of them stands in the place of a field, which names it.
  obtain ⟨place, below, rfl⟩ := List.getElem_of_mem member
  exact (named.get (by rwa [named.length_eq]) below).2

/-- Rows on lines are those of some samples over the alphabet. -/
theorem exists_forall₂_has {texts : List String} {rows : List (Int × Sample)}
    (held : List.Forall₂ (HoldsSample alphabetSize) texts rows) :
    ∃ samples : List (LabeledSample alphabetSize), List.Forall₂ Has samples rows := by
  -- The induction goes along the rows, each of which is a sample of the alphabet.
  induction held with
  | nil => exact ⟨[], .nil⟩
  | @cons _ row _ _ first _ ih =>
    obtain ⟨_, _, _, _, _, _, named⟩ := first
    obtain ⟨samples, others⟩ := ih
    exact ⟨⟨labelOf row.1, row.2, within_of_names named⟩ :: samples, .cons ⟨rfl, rfl⟩ others⟩

/-- A sample can be read from each line if the lines hold rows which the samples have. -/
theorem forall₂_ofLine {lines : List (String × Nat)} {samples : List (LabeledSample alphabetSize)} :
    List.Forall₂ (fun line labeled => ofLine alphabetSize ⟨line.2, Text.fields line.1⟩ = .ok labeled)
        lines samples ↔
      ∃ rows, List.Forall₂ (HoldsSample alphabetSize) (lines.map Prod.fst) rows ∧
        List.Forall₂ Has samples rows := by
  -- The induction goes along the lines, each of which is read on its own.
  simp only [ofLine_eq_ok, List.forall₂_map_left_iff]
  induction lines generalizing samples with
  | nil => simp
  | cons line rest ih =>
    constructor
    · intro read
      cases read with
      | cons first later =>
        obtain ⟨row, held, has⟩ := first
        obtain ⟨rows, others, hasOthers⟩ := ih.1 later
        exact ⟨row :: rows, .cons held others, .cons has hasOthers⟩
    · intro listed
      obtain ⟨rows, held, has⟩ := listed
      cases held with
      | cons first others =>
        cases has with
        | cons has later => exact .cons ⟨_, first, has⟩ (ih.2 ⟨_, others, later⟩)

/-- The samples with a label are those on the rows whose numbers stand for it. -/
theorem labeled_eq {samples : List (LabeledSample alphabetSize)} {rows : List (Int × Sample)}
    (listed : List.Forall₂ Has samples rows) (label : Label) :
    labeled label samples = (rows.filter fun row => labelOf row.1 = label).map (·.2) := by
  -- The induction goes along the rows, each of which has the label of its sample.
  induction listed with
  | nil => rfl
  | cons first _ ih =>
    obtain ⟨sample, same⟩ := first
    rw [labeled, List.filter_cons, List.filter_cons, same]
    split
    · rw [List.map_cons, List.map_cons, sample, ← ih, labeled]
    · exact ih

/-- The number one stands for positive samples. -/
theorem labelOf_eq_positive {number : Int} : labelOf number = .positive ↔ number = 1 := by
  rw [labelOf]
  split <;> simp [*]

/-- Any other number stands for negative samples. -/
theorem labelOf_eq_negative {number : Int} : labelOf number = .negative ↔ number ≠ 1 := by
  rw [labelOf]
  split <;> simp [*]

end LabeledSample

namespace SampleSet

/-- A symbol outside the alphabet is found only if some sample leaves the alphabet. -/
theorem firstOffence?_eq_none {alphabetSize : Nat} {samples : List Sample}
    (within : ∀ sample ∈ samples, sample.Within alphabetSize) :
    firstOffence? alphabetSize samples = none := by
  -- No symbol of any sample lies outside the alphabet.
  rw [firstOffence?, List.findSome?_eq_none_iff]
  intro sample member
  rw [Option.map_eq_none_iff, List.find?_eq_none]
  intro symbol held
  have := within sample member symbol held
  simpa using this

/-- A set of samples is what its parts are put together to. -/
theorem ofParts_eq (samples : SampleSet) :
    ofParts samples.alphabetSize samples.positives samples.negatives = .ok samples := by
  -- Samples that are a set already have no offence among them.
  have clean : firstOffence? samples.alphabetSize (samples.positives ++ samples.negatives) = none :=
    firstOffence?_eq_none (List.forall_mem_append.2
      ⟨samples.positives_within, samples.negatives_within⟩)
  unfold ofParts
  split
  · rename_i found
    cases clean.symm.trans found
  · rfl

end SampleSet

/-- A sample file shows what is listed in it. -/
structure SampleFile.Shows (file : SampleFile) (listing : SampleListing) : Prop where
  /-- As many samples are declared. -/
  declared : file.declared = listing.declared
  /-- The alphabet is the same. -/
  alphabetSize : file.samples.alphabetSize = listing.alphabetSize
  /-- The samples labeled by the number one are the positive ones, in their order. -/
  positives : file.samples.positives = listing.positives
  /-- All other samples are the negative ones, in their order. -/
  negatives : file.samples.negatives = listing.negatives

namespace SampleFile

variable {file : SampleFile} {listing : SampleListing} {texts : List String}

/-- There are as many samples as rows, each of which has one label or the other. -/
theorem Shows.size_eq (shown : file.Shows listing) : file.samples.size = listing.rows.length := by
  -- Each row is positive or negative.
  have split := List.length_eq_length_filter_add (l := listing.rows) fun row => decide (row.1 = 1)
  simp only [← decide_not] at split
  rw [SampleSet.size, shown.positives, shown.negatives, SampleListing.positives,
    SampleListing.negatives, List.length_map, List.length_map, split]

/-- The number of declared samples is told together with the number of rows if they differ. -/
theorem Shows.events_eq (shown : file.Shows listing) : file.events =
    if listing.declared = listing.rows.length then []
    else [.countMismatch listing.declared listing.rows.length] := by
  rw [events, countMismatch?, shown.size_eq, shown.declared]
  split <;> rfl

/-- What was read may as well be put together from its parts. -/
theorem Shows.ofParts_eq (shown : file.Shows listing) :
    SampleSet.ofParts listing.alphabetSize listing.positives listing.negatives = .ok file.samples := by
  rw [← shown.alphabetSize, ← shown.positives, ← shown.negatives]
  exact SampleSet.ofParts_eq file.samples

/-- Without the blank lines a text has the header in front and the samples behind it. -/
theorem ofLines_eq_ok : ofLines (texts.map .ok) = .ok file ↔
    ∃ first rest header samples, (texts.zipIdx 1).filter (!Text.isBlankLine ·.1) = first :: rest ∧
      SampleHeader.ofLine ⟨first.2, Text.fields first.1⟩ = .ok header ∧
      List.Forall₂ (fun line labeled =>
        LabeledSample.ofLine header.alphabetSize ⟨line.2, Text.fields line.1⟩ = .ok labeled)
        rest samples ∧
      ofSamples header samples = file := by
  -- The first line that is not blank is the header, and all others are samples.
  rw [ofLines, Model.ofLines_map_ok, Model.filter_map_entry FieldLine.isBlank_fields]
  cases (texts.zipIdx 1).filter (!Text.isBlankLine ·.1) with
  | nil => simp
  | cons line lines =>
    constructor
    · intro read
      obtain ⟨_, entered, read⟩ := bind_eq_ok.1 read
      cases entered
      obtain ⟨header, headed, read⟩ := bind_eq_ok.1 read
      obtain ⟨samples, listed, done⟩ := bind_eq_ok.1 read
      cases done
      rw [mapM_eq_ok, List.forall₂_map_left_iff] at listed
      exact ⟨line, lines, header, samples, rfl, headed, listed, rfl⟩
    · intro held
      obtain ⟨first, rest, header, samples, split, headed, listed, rfl⟩ := held
      cases split
      refine bind_eq_ok.2 ⟨_, rfl, bind_eq_ok.2 ⟨header, headed, bind_eq_ok.2 ⟨samples, ?_, rfl⟩⟩⟩
      rw [mapM_eq_ok, List.forall₂_map_left_iff]
      exact listed

/-- What is made of samples shows the listing whose rows they have. -/
theorem shows_ofSamples {header : SampleHeader} {samples : List (LabeledSample header.alphabetSize)}
    {rows : List (Int × Sample)} (listed : List.Forall₂ LabeledSample.Has samples rows) :
    (ofSamples header samples).Shows ⟨header.declared, header.alphabetSize, rows⟩ where
  -- The rows are split by label in their order.
  declared := rfl
  alphabetSize := rfl
  positives := by
    have chosen := LabeledSample.labeled_eq listed .positive
    simp only [LabeledSample.labelOf_eq_positive] at chosen
    exact chosen
  negatives := by
    have chosen := LabeledSample.labeled_eq listed .negative
    simp only [LabeledSample.labelOf_eq_negative] at chosen
    exact chosen

/-- Lines that can be read follow the grammar, and what was read shows their listing. -/
theorem exists_describes (read : ofLines (texts.map .ok) = .ok file) :
    ∃ listing, Describes texts listing ∧ file.Shows listing := by
  -- Every line that is read without error is one of the grammar.
  obtain ⟨first, rest, header, samples, split, headed, listed, rfl⟩ := ofLines_eq_ok.1 read
  obtain ⟨held, small⟩ := SampleHeader.ofLine_eq_ok.1 headed
  obtain ⟨rows, described, has⟩ := LabeledSample.forall₂_ofLine.1 listed
  have lines := Model.map_fst_filter (!Text.isBlankLine ·) texts
  rw [split] at lines
  exact ⟨_, .intro lines.symm held small described, shows_ofSamples has⟩

/-- Lines that follow the grammar can be read, and what is read shows their listing. -/
theorem exists_ofLines (described : Describes texts listing) :
    ∃ file, ofLines (texts.map .ok) = .ok file ∧ file.Shows listing := by
  -- The reader accepts a header and rows that the grammar describes, line by line.
  obtain ⟨declared, alphabetSize, rows⟩ := listing
  cases described with
  | intro lines header small held =>
    rw [← Model.map_fst_filter, List.map_eq_cons_iff] at lines
    obtain ⟨first, rest, split, rfl, rfl⟩ := lines
    obtain ⟨samples, has⟩ := LabeledSample.exists_forall₂_has held
    exact ⟨_, ofLines_eq_ok.2 ⟨first, rest, ⟨declared, alphabetSize⟩, samples, split,
      SampleHeader.ofLine_eq_ok.2 ⟨header, small⟩,
      LabeledSample.forall₂_ofLine.2 ⟨rows, held, has⟩, rfl⟩, shows_ofSamples has⟩

/-- A sample file is read exactly if its lines follow the grammar, and then as what they list. -/
theorem ofBytes_grammar {bytes : ByteArray} {texts : List String}
    (valid : Text.lines bytes = texts.map .ok) :
    ((∃ file, ofBytes bytes = .ok file) ↔ ∃ listing, Describes texts listing) ∧
    ∀ file listing, ofBytes bytes = .ok file → Describes texts listing →
      file.Shows listing ∧
      -- The same set comes of its parts, and a wrong number of samples is told.
      SampleSet.ofParts listing.alphabetSize listing.positives listing.negatives = .ok file.samples ∧
      file.events = if listing.declared = listing.rows.length then []
        else [.countMismatch listing.declared listing.rows.length] := by
  rw [ofBytes, valid]
  refine ⟨?_, fun file listing read described => ?_⟩
  · constructor
    · intro read
      obtain ⟨file, read⟩ := read
      obtain ⟨listing, described, _⟩ := exists_describes read
      exact ⟨listing, described⟩
    · intro described
      obtain ⟨listing, described⟩ := described
      obtain ⟨file, read, _⟩ := exists_ofLines described
      exact ⟨file, read⟩
  · obtain ⟨again, repeated, shown⟩ := exists_ofLines described
    cases read.symm.trans repeated
    exact ⟨shown, shown.ofParts_eq, shown.events_eq⟩

/-- A file with blank lines, signs, leading zeros and labels of all kinds that declares too few samples. -/
def mixedLines : List String :=
  ["", "  3 +2 ", "1 2 0 1", "\t", "-7 0", "01 1 00", "+2 1 1"]

/-- What is listed on these lines. -/
def mixedListing : SampleListing := ⟨3, 2, [(1, [0, 1]), (-7, []), (1, [0]), (2, [1])]⟩

/-- The lines follow the grammar. -/
theorem describes_mixedLines : Describes mixedLines mixedListing := by
  have zero : NamesSymbol 2 "0" 0 := ⟨by decide +kernel, by decide⟩
  have zeros : NamesSymbol 2 "00" 0 := ⟨by decide +kernel, by decide⟩
  have one : NamesSymbol 2 "1" 1 := ⟨by decide +kernel, by decide⟩
  have lines : mixedLines.filter (!Text.isBlankLine ·) =
      ["  3 +2 ", "1 2 0 1", "-7 0", "01 1 00", "+2 1 1"] := by decide +kernel
  refine .intro lines ⟨"3", "+2", ?_, ?_, ?_⟩ (Model.fits_iff.1 (by decide +kernel)) <|
    .cons ⟨"1", "2", ["0", "1"], ?_, ?_, ?_, .cons zero (.cons one .nil)⟩ <|
    .cons ⟨"-7", "0", [], ?_, ?_, ?_, .nil⟩ <|
    .cons ⟨"01", "1", ["00"], ?_, ?_, ?_, .cons zeros .nil⟩ <|
    .cons ⟨"+2", "1", ["1"], ?_, ?_, ?_, .cons one .nil⟩ .nil
  -- What is left is how the lines are split and what their fields are parsed as.
  all_goals decide +kernel

/-- The samples keep their order under either label, and the wrong number of samples is told. -/
theorem ofBytes_grammar_mixed :
    Text.lines (Text.ofLines mixedLines).toUTF8 = mixedLines.map .ok ∧
    ∃ file, ofBytes (Text.ofLines mixedLines).toUTF8 = .ok file ∧
      file.samples.positives = [[0, 1], [0]] ∧ file.samples.negatives = [[], [1]] ∧
      SampleSet.ofParts 2 [[0, 1], [0]] [[], [1]] = .ok file.samples ∧
      file.events = [.countMismatch 3 4] := by
  -- The lines carry signs, leading zeros and blanks, and announce one sample too few.
  have valid : Text.lines (Text.ofLines mixedLines).toUTF8 = mixedLines.map .ok :=
    Text.lines_ofLines (by decide)
  obtain ⟨grammar, outcome⟩ := ofBytes_grammar valid
  obtain ⟨file, read⟩ := grammar.2 ⟨_, describes_mixedLines⟩
  obtain ⟨shown, parts, told⟩ := outcome file _ read describes_mixedLines
  exact ⟨valid, file, read, shown.positives, shown.negatives, parts, told⟩

end SampleFile

end NfaInduction
