import NfaInduction.Proofs.Except
import NfaInduction.Sample.Reader

/-! A sample file that can be read leaves room for an automaton over its alphabet. -/

namespace NfaInduction

/-- A header is accepted only if an automaton over its alphabet may be built. -/
theorem SampleHeader.fits_of_ofLine {line : FieldLine} {header : SampleHeader}
    (read : SampleHeader.ofLine line = .ok header) : Capacity.fits header.alphabetSize 0 := by
  -- The bound is the last thing checked, and every other branch is a refusal.
  rw [SampleHeader.ofLine] at read
  split at read
  · obtain ⟨declared, _, read⟩ := bind_eq_ok.1 read
    obtain ⟨alphabetSize, _, read⟩ := bind_eq_ok.1 read
    split at read
    · rename_i fits
      cases read
      exact fits
    · cases read
  · cases read

/-- Samples are read only if an automaton over their alphabet may be built. -/
theorem SampleFile.fits_of_ofBytes {bytes : ByteArray} {file : SampleFile}
    (read : SampleFile.ofBytes bytes = .ok file) : Capacity.fits file.samples.alphabetSize 0 := by
  rw [SampleFile.ofBytes, SampleFile.ofLines] at read
  split at read
  · cases read
  · -- The alphabet is that of the header.
    obtain ⟨line, _, read⟩ := bind_eq_ok.1 read
    obtain ⟨header, first, read⟩ := bind_eq_ok.1 read
    obtain ⟨samples, _, read⟩ := bind_eq_ok.1 read
    cases read
    exact SampleHeader.fits_of_ofLine first

end NfaInduction
