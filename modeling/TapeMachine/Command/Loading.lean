import TapeMachine.Program.Basic
import TapeMachine.Text.Utf8

/-!
# Loading programs

The path `-` stands for the standard input; any other path is that of a file, which is opened and
then read. Nothing is assumed of the files that there are. The bytes are read as text, whether or
not they spell one.
-/

namespace TapeMachine.Command

/-- What the system has against a path. -/
inductive SystemError where
  | noSuchFile
  | notADirectory
  | isADirectory
  /-- A name, or the whole path, is longer than names and paths can be. -/
  | nameTooLong
  | other (text : String)
  deriving DecidableEq

def SystemError.message : SystemError → String
  | noSuchFile => "No such file or directory (os error 2)"
  | notADirectory => "Not a directory (os error 20)"
  | isADirectory => "Is a directory (os error 21)"
  | nameTooLong => "File name too long (os error 36)"
  | other text => text

inductive LoadError where
  | cannotOpen (path : String) (cause : SystemError)
  | cannotRead (cause : SystemError)
  deriving DecidableEq

def LoadError.message : LoadError → String
  | cannotOpen path cause => "Could not open file " ++ path ++ ": " ++ cause.message
  | cannotRead cause => "Could not read file: " ++ cause.message

def standardInput : String := "-"

/-- What a command can read from. A file is opened first, and what it holds is read then; either can
fail. -/
structure Surroundings (m : Type → Type) where
  input : m (Except SystemError (Array UInt8))
  file : String → m (Except SystemError (Except SystemError (Array UInt8)))

def Surroundings.load {m : Type → Type} [Monad m] (s : Surroundings m) (path : String) :
    m (Except LoadError (Array UInt8)) := do
  if path = standardInput then return (← s.input).mapError .cannotRead
  else
    match ← s.file path with
    | .error cause => return .error (.cannotOpen path cause)
    | .ok contents => return contents.mapError .cannotRead

def programOfBytes (bytes : Array UInt8) : Program := .ofSource (Utf8.decode bytes)

end TapeMachine.Command
