import TapeMachine.Brackets.Depth
import TapeMachine.Machine.Run

/-!
# Structured code

Code in which a loop holds its body, so that no bracket can be unmatched and no jump is needed.
`Code.flatten` writes it as an instruction sequence. `Code.evaluate` runs it by recursion on the
code, without a position and without a table of partners: an action costs one step, entering or
passing over a loop costs one step, and the test at the end of each pass costs one step.
-/

namespace TapeMachine

/-- Structured code: nothing, or an action or a loop before more code. -/
inductive Code where
  | done
  | act (action : Action) (rest : Code)
  | loop (body rest : Code)
  deriving DecidableEq

/-- How the evaluation of code came out, after at least `least` steps. -/
inductive Evaluation (least : Nat) where
  | finished (memory : Memory) (steps : Nat) (least_le : least ≤ steps)
  | timedOut (memory : Memory) (steps : Nat)
  | broken (fault : Fault)

/-- An evaluation that began later began after fewer steps too. -/
def Evaluation.weaken {m n : Nat} (h : m ≤ n) : Evaluation n → Evaluation m
  | finished memory steps hle => finished memory steps (Nat.le_trans h hle)
  | timedOut memory steps => timedOut memory steps
  | broken fault => broken fault

namespace Code

/-- The instruction sequence that the code is written as. -/
def flatten : Code → List Instr
  | done => []
  | act action rest => .act action :: rest.flatten
  | loop body rest => .loopBegin :: body.flatten ++ .loopEnd :: rest.flatten

theorem balanced_flatten (code : Code) : Balanced code.flatten := by
  induction code with
  | done => exact balanced_nil
  | act action rest ih =>
    have h : Balanced [.act action] :=
      ⟨fun k _ => by cases k <;> simp [Instr.rise], by simp [Instr.rise]⟩
    exact h.append ih
  | loop body rest ihb ihr => simpa [flatten] using ihb.loop.append ihr

/-- The memory after an action, with the pointer on the tape. -/
def perform (action : Action) (memory : Memory) : Except Fault Memory := do
  let value ← memory.current
  return (← memory.act value action).land

mutual

/-- Evaluate code after `steps` steps. A step is refused once more than `budget` were taken. -/
def evaluate (budget : Nat) (code : Code) (memory : Memory) (steps : Nat) : Evaluation steps :=
  match code with
  | done => .finished memory steps (Nat.le_refl _)
  | act action rest =>
    if _h : budget < steps then .timedOut memory steps
    else
      match perform action memory with
      | .ok memory => (rest.evaluate budget memory (steps + 1)).weaken (Nat.le_succ _)
      | .error fault => .broken fault
  | loop body rest =>
    if _h : budget < steps then .timedOut memory steps
    else
      match memory.current with
      | .ok value =>
        if value = 0 then (rest.evaluate budget memory (steps + 1)).weaken (Nat.le_succ _)
        else (body.evaluateLoop budget rest memory (steps + 1)).weaken (Nat.le_succ _)
      | .error fault => .broken fault
termination_by (budget + 1 - steps, sizeOf code)

/-- Evaluate the body of a loop, again and again until the current cell is zero at its end, and
then the rest. -/
def evaluateLoop (budget : Nat) (body rest : Code) (memory : Memory) (steps : Nat) :
    Evaluation steps :=
  match body.evaluate budget memory steps with
  | .timedOut memory steps => .timedOut memory steps
  | .broken fault => .broken fault
  | .finished memory later hle =>
    if _h : budget < later then .timedOut memory later
    else
      match memory.current with
      | .ok value =>
        if value = 0 then
          (rest.evaluate budget memory (later + 1)).weaken (Nat.le_trans hle (Nat.le_succ _))
        else
          (body.evaluateLoop budget rest memory (later + 1)).weaken
            (Nat.le_trans hle (Nat.le_succ _))
      | .error fault => .broken fault
termination_by (budget + 1 - steps, sizeOf body + 1)

end

/-- What a run of the code reports. -/
def outcome (settings : Settings) (code : Code) (budget : UInt64) : Except Failure Outcome :=
  match code.evaluate budget.toNat .fresh 0 with
  | .finished memory steps _ => .ok (.completed memory.output (UInt64.ofNat steps))
  | .timedOut memory steps =>
    .ok (.timedOut (if settings.keepOutput then memory.output else #[]) (UInt64.ofNat steps))
  | .broken fault => .error (.broken fault)

end Code

end TapeMachine
