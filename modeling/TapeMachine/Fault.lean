import TapeMachine.Brackets.Pairing

/-!
# Errors and faults

An `Error` is an answer that a caller can be given: the program is malformed, or an instruction
was asked for that it does not have. A `Fault` is a broken promise of the caller: reading outside
the tape, asking for the end of a loop where no loop begins. Each has one text.
-/

namespace TapeMachine

/-- A request that cannot be met. -/
inductive Error where
  | malformed (imbalance : Imbalance)
  | outOfRange (index length : Nat)
  deriving DecidableEq

namespace Error

def message : Error → String
  | malformed imbalance => "malformed program: " ++ imbalance.message
  | outOfRange index length =>
    s!"instruction index {index} out of range for program of length {length}"

end Error

/-- A request that breaks a promise of its caller. -/
inductive Fault where
  | indexOutOfBounds (index length : Nat)
  | searchWithoutMatch
  | jumpWithoutMatch
  /-- Another instruction, or none, is where a loop bracket was promised. -/
  | unexpectedInstr (expected : Instr) (index : Nat) (found : Option Instr)
  | notABracket (index : Nat)
  | endNotFound (start : Nat)
  | beginNotFound (finish : Nat)
  /-- A search was to leave a loop while it was in none. -/
  | depthBelowZero
  | stepCounterFull
  deriving DecidableEq

namespace Fault

/-- How a message speaks of an instruction that may be missing. -/
def describe : Option Instr → String
  | some instr => "Some(" ++ instr.name ++ ")"
  | none => "None"

def message : Fault → String
  | indexOutOfBounds index length =>
    s!"index out of bounds: the len is {length} but the index is {index}"
  | searchWithoutMatch => "loop search on a program with unmatched brackets"
  | jumpWithoutMatch => "jump requested on a program with unmatched brackets"
  | unexpectedInstr expected index found =>
    "expected " ++ expected.name ++ s!" at instruction {index}, found " ++ describe found
  | notABracket index => s!"instruction {index} is not a loop bracket"
  | endNotFound start => s!"no EndLoop closes the loop at instruction {start}"
  | beginNotFound finish => s!"no BeginLoop opens the loop at instruction {finish}"
  | depthBelowZero => "attempt to subtract with overflow"
  | stepCounterFull => "attempt to add with overflow"

end Fault

end TapeMachine
