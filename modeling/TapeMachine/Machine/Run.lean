import TapeMachine.Log.Record
import TapeMachine.Machine.State

/-!
# Budgeted runs

`run` executes a program from the start under a budget of steps. The budget is looked at before
every step and the step is refused once more steps than the budget have been taken, so a run may
take one step more than its budget. A program whose brackets do not match is refused before
anything is executed.
-/

namespace TapeMachine

/-- What may be chosen for a run. -/
structure Settings where
  /-- Whether a run that spends its budget still reports what it printed. -/
  keepOutput : Bool := false
  deriving DecidableEq

inductive Outcome where
  | completed (output : Array UInt8) (steps : UInt64)
  | timedOut (output : Array UInt8) (steps : UInt64)
  deriving DecidableEq

namespace Outcome

def output : Outcome → Array UInt8
  | completed output _ => output
  | timedOut output _ => output

def steps : Outcome → UInt64
  | completed _ steps => steps
  | timedOut _ steps => steps

def isTimedOut : Outcome → Bool
  | completed .. => false
  | timedOut .. => true

end Outcome

/-- Why a run has no outcome. -/
inductive Failure where
  | refused (error : Error)
  | broken (fault : Fault)
  deriving DecidableEq

/-- Where and how a run stops: in a state, or at fault with some growths of the tape noted. -/
inductive Stop where
  | halted (s : State)
  | exhausted (s : State)
  | broken (growths : Array Nat) (fault : Fault)
  deriving DecidableEq

/-- The growths that are noted when a step from the state is at fault. The pointer lands before the
step is counted, so a step that only lacks room in the counter has noted its own. -/
def State.growthsAtFault (p : Program) (s : State) : Array Nat :=
  match { s with steps := 0 }.step p with
  | .ok s' => s'.memory.growths
  | .error _ => s.memory.growths

def drive (p : Program) (budget : UInt64) (s : State) : Stop :=
  if s.Halted p then .halted s
  else if budget < s.steps then .exhausted s
  else
    match _h : s.step p with
    | .ok s' => drive p budget s'
    | .error fault => .broken (s.growthsAtFault p) fault
termination_by UInt64.size - s.steps.toNat
decreasing_by
  have h := State.steps_of_step _h
  have h' : s'.steps.toNat < UInt64.size := s'.steps.toNat_lt
  omega

/-- A run and the records it left. -/
structure Report where
  span : Span
  growths : Array Nat
  closing : Option Event
  result : Except Failure Outcome

/-- The records of a run after its introduction, in order. -/
def Report.events (r : Report) : List Event :=
  r.growths.toList.map .tapeGrew ++ r.closing.toList

def Report.ofStop (settings : Settings) (span : Span) : Stop → Report
  | .halted s =>
    { span
      growths := s.memory.growths
      closing := some (.completed s.steps s.memory.output.size s.memory.tape.size)
      result := .ok (.completed s.memory.output s.steps) }
  | .exhausted s =>
    { span
      growths := s.memory.growths
      closing := some (.exhausted s.steps settings.keepOutput)
      result := .ok (.timedOut (if settings.keepOutput then s.memory.output else #[]) s.steps) }
  | .broken growths fault =>
    { span, growths, closing := none, result := .error (.broken fault) }

/-- Run a program on a fresh tape. -/
def run (settings : Settings) (p : Program) (budget : UInt64) : Report :=
  let span := ⟨p.size, budget⟩
  match p.validate with
  | .error error => ⟨span, #[], some (.refused error), .error (.refused error)⟩
  | .ok () => .ofStop settings span (drive p budget .start)

def defaultBudget : UInt64 := 100000000

end TapeMachine
