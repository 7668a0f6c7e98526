import NfaInduction.Event
import NfaInduction.Text.Line

/-! A host offers files, randomness and output to a command. -/

namespace NfaInduction

/-- What a command is about to do, which is told to those who follow the progress. -/
inductive Notice where
  /-- A file of samples is read. -/
  | loadingSamples (path : String)
  /-- A model is read. -/
  | loadingModel (path : String)
  /-- A model is trained with a seed, for a file. -/
  | training (seed : UInt64) (model : String)
deriving DecidableEq

namespace Notice

/-- The words for a notice. -/
def message : Notice → String
  | .loadingSamples _ => "loading samples"
  | .loadingModel _ => "loading model"
  | .training .. => "training"

/-- How much a notice matters. -/
def level (_ : Notice) : Level := .info

end Notice

/-- Effects that a command needs, where a handle stands for a file that is being written. -/
class Host (host : Type → Type) (handle : outParam Type) where
  /-- The lines of a file, or why it was not opened. -/
  readLines : String → host (Except FileFailure (List Line))
  /-- A new or emptied file, or why there is none. -/
  create : String → host (Except FileFailure handle)
  /-- Writes text behind what was written through the handle before, and returns the handle. -/
  write : handle → String → host handle
  /-- A seed that nobody chose. -/
  entropy : host UInt64
  /-- Whether the environment admits color. -/
  admitsColor : host Bool
  /-- Tells what is about to be done. -/
  announce : Notice → host Unit
  /-- Tells about an event. -/
  tell : Event → host Unit
  /-- Shows text as the result. -/
  display : String → host Unit

end NfaInduction
