import NfaInduction.Command.Host

/-! A draft keeps text back until there is enough of it to be written to its file. -/

namespace NfaInduction

/-- A file with text that was not written to it yet. -/
structure Draft (handle : Type) where
  /-- The file. -/
  file : handle
  /-- The text kept back. -/
  pending : String

namespace Draft

variable {host : Type → Type} {handle : Type} [Monad host] [Host host handle]

/-- Number of bytes that are kept back at most. -/
def capacity : Nat := 8192

/-- A draft without text. -/
def ofFile (file : handle) : Draft handle := ⟨file, ""⟩

/-- Whether a piece of text can be kept back as well. -/
def hasRoom (draft : Draft handle) (piece : String) : Bool :=
  draft.pending.utf8ByteSize + piece.utf8ByteSize ≤ capacity

/-- Adds a piece of text, for which the text kept back is written if there is no room for both. -/
def add (draft : Draft handle) (piece : String) : host (Draft handle) :=
  if draft.hasRoom piece then pure { draft with pending := draft.pending ++ piece }
  -- What was kept back is written as it is, and the piece is kept in its place.
  else do
    let file ← Host.write draft.file draft.pending
    return ⟨file, piece⟩

/-- Adds a line. -/
def addLine (draft : Draft handle) (line : String) : host (Draft handle) := do
  -- The end of the line is a piece of its own and may come after a write.
  let draft ← draft.add line
  draft.add "\n"

/-- Writes what is still kept back. -/
def finish (draft : Draft handle) : host Unit := discard (Host.write draft.file draft.pending)

end Draft

end NfaInduction
