import NfaInduction.Command.Run

/-! The command line: commands run on the file system, and messages go to the error stream. -/

namespace NfaInduction

namespace Main

/-- The failure that the system reports by a number or a description. -/
def fileFailure (error : IO.Error) : FileFailure :=
  match error with
  | .noFileOrDirectory .. => .notFound
  | .inappropriateType _ 20 _ => .notADirectory
  | .inappropriateType _ 21 _ => .isADirectory
  | .invalidArgument _ 36 _ => .nameTooLong
  | _ => .other (toString error)

/-- Turns what the system throws into a failure. -/
def guarded {α : Type} (activity : IO α) : IO (Except FileFailure α) :=
  try return .ok (← activity)
  catch error => return .error (fileFailure error)

/-- Opens a file, whose name must not hold the character that would end it. -/
def openFile (path : String) (mode : IO.FS.Mode) : IO (Except FileFailure IO.FS.Handle) :=
  if path.toList.contains '\x00' then return .error .nameWithNul
  else guarded (IO.FS.Handle.mk path mode)

/-- The lines of a file, where a failure to read stands in the place of the lines. -/
def readLines (path : String) : IO (Except FileFailure (List Line)) := do
  match ← openFile path .read with
  | .error failure => return .error failure
  | .ok file =>
    match ← guarded file.readBinToEnd with
    | .ok content => return .ok (Text.lines content)
    | .error failure => return .ok [.error (.file failure)]

/-- A seed from the entropy of the system. -/
def entropy : IO UInt64 := do
  let bytes ← IO.getRandomBytes 8
  return bytes.toList.foldl (fun seed byte => seed * 256 + byte.toUInt64) 0

/-- Whether the environment names a terminal that shows color and does not forbid it. -/
def admitsColor : IO Bool := do
  let terminal ← IO.getEnv "TERM"
  let forbidden ← IO.getEnv "NO_COLOR"
  return terminal.any (· != "dumb") && forbidden.isNone

/-- The line that tells what is about to be done. -/
def noticeLine (notice : Notice) : String :=
  let details := match notice with
    | .loadingSamples path | .loadingModel path => s!"path={path}"
    | .training seed model => s!"seed={seed} model={model}"
  s!"{notice.message} {details}"

/-- The line that tells about an event. -/
def eventLine (event : Event) : String :=
  let numbers := match event with
    | .countMismatch declared found => s!"declared={declared} found={found}"
    | .possibleMerge position index kept absorbed score =>
      s!"j={position} i={index} s2={kept} s1={absorbed} score={score}"
    | .merge position index kept absorbed score =>
      s!"j={position} i={index} s2={kept} s1={absorbed} score={Event.scoreText score}"
    | .processed processed total percent states =>
      s!"processed={processed} total={total} percent={percent} states={states}"
    | .finished states positives negatives =>
      s!"states={states} positives={positives} negatives={negatives}"
  s!"{event.message} {numbers}"

/-- Commands run on the file system. -/
instance : Host IO IO.FS.Handle where
  readLines := readLines
  create path := openFile path .write
  write file text := do
    file.putStr text
    file.flush
    return file
  entropy := entropy
  admitsColor := admitsColor
  announce notice := do (← IO.getStderr).putStrLn (noticeLine notice)
  tell event := do (← IO.getStderr).putStrLn (eventLine event)
  display text := do
    let output ← IO.getStdout
    output.putStr text
    output.flush

end Main

end NfaInduction

/-- Runs the command that the arguments ask for. -/
def main (arguments : List String) : IO UInt32 := do
  let outcome ← NfaInduction.Command.run arguments
  if let some error := outcome.error then
    (← IO.getStderr).putStrLn error
  return outcome.code.toUInt32
