import TapeMachine.Fault
import TapeMachine.Log.Level

/-!
# Log records

A run reports on itself. It is introduced by a `Span`, each growth of the tape is a record, and
one record says how it ended. A record has a level, a message and named fields; what is shown of
it, and how, is decided elsewhere.
-/

namespace TapeMachine

inductive FieldValue where
  | number (n : Nat)
  | flag (b : Bool)
  | text (s : String)
  deriving DecidableEq

abbrev Field := String × FieldValue

/-- The run that records belong to. -/
structure Span where
  instrs : Nat
  budget : UInt64
  deriving DecidableEq

namespace Span

def level : Level := .info

def name : String := "run"

/-- The part of the machine that introduces runs. -/
def target : String := "tapevm::runnable::interpreter"

def fields (span : Span) : List Field :=
  [("instrs", .number span.instrs), ("budget", .number span.budget.toNat)]

end Span

/-- A record of something that happened in a run. -/
inductive Event where
  | tapeGrew (length : Nat)
  | completed (steps : UInt64) (outputLength tapeLength : Nat)
  | exhausted (steps : UInt64) (outputKept : Bool)
  | refused (error : Error)
  deriving DecidableEq

namespace Event

def level : Event → Level
  | tapeGrew _ => .trace
  | completed .. => .debug
  | exhausted .. => .warn
  | refused _ => .debug

/-- The part of the machine that speaks. -/
def target : Event → String
  | tapeGrew _ => "tapevm::runnable::tape"
  | _ => Span.target

def message : Event → String
  | tapeGrew _ => "tape grew"
  | completed .. => "program completed"
  | exhausted .. => "instruction budget exhausted"
  | refused _ => "refusing to run"

/-- The named values of a record, in the order in which they are shown. -/
def fields : Event → List Field
  | tapeGrew length => [("len", .number length)]
  | completed steps outputLength tapeLength =>
    [("steps", .number steps.toNat), ("output_len", .number outputLength),
      ("tape_len", .number tapeLength)]
  | exhausted steps outputKept => [("steps", .number steps.toNat), ("partial", .flag outputKept)]
  | refused error => [("error", .text error.message)]

/-- The names of what a record holds; its message is held under a name too. -/
def fieldNames (event : Event) : List String := "message" :: event.fields.map Prod.fst

end Event

end TapeMachine
