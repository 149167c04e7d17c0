import TapeMachine.Command.Response
import TapeMachine.Command.Scan
import TapeMachine.Log.Line

/-!
# The command

Answers the command line in the system that it is called in, and writes the answer. No times are
shown in its log.
-/

namespace TapeMachine.Command

/-- What the system has against a path, by the error it raised. -/
def SystemError.ofException : IO.Error → SystemError
  | .noFileOrDirectory .. => .noSuchFile
  | .inappropriateType _ 20 _ => .notADirectory
  | .inappropriateType _ 21 _ => .isADirectory
  | .invalidArgument _ 36 _ => .nameTooLong
  | .permissionDenied _ code details => .other s!"{details} (os error {code})"
  | error => .other (toString error)

def attempt {α : Type} (action : IO α) : IO (Except SystemError α) := do
  match ← action.toBaseIO with
  | .ok a => return .ok a
  | .error error => return .error (.ofException error)

def readToEnd (stream : IO.FS.Stream) : IO (Array UInt8) := do
  let mut bytes := #[]
  repeat
    let chunk ← stream.read 65536
    if chunk.isEmpty then break
    bytes := bytes ++ chunk.data
  return bytes

/-- What the system that the command is called in has to read. -/
def systemSurroundings : Surroundings IO where
  input := do attempt (readToEnd (← IO.getStdin))
  file path := do
    match ← attempt (IO.FS.Handle.mk path .read) with
    | .error cause => return .error cause
    | .ok handle => return .ok (← attempt (readToEnd (.ofHandle handle)))

def writeOutput (output : Array UInt8) : IO (Except DeliveryError Unit) := do
  let stdout ← IO.getStdout
  match ← attempt (stdout.write ⟨output⟩) with
  | .error cause => return .error (.cannotWrite cause)
  | .ok () => return (← attempt stdout.flush).mapError .cannotFlush

end TapeMachine.Command

open TapeMachine TapeMachine.Command

def main (arguments : List String) : IO UInt32 := do
  let response ← respondWith usageReader systemSurroundings.load arguments
  let response ← response.deliver writeOutput
  let setting ← IO.getEnv "RUST_LOG"
  let log := Report.log directiveSubscriber setting fun _ => .none
  (← IO.getStderr).putStr (response.errorText log)
  return response.status
