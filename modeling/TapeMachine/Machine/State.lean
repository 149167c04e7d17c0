import TapeMachine.Program.Basic
import TapeMachine.Tape

/-!
# The machine and its steps

The machine executes one instruction at a time. A step reads the current cell, does what the
instruction says, lands the pointer on the tape, moves on to the next instruction and counts one
step. A jump goes to the partner of the bracket, so control goes on behind the partner. Whatever
could go wrong in a step is a `Fault` of `State.step`.
-/

namespace TapeMachine

/-- What a program acts on: tape and pointer, and what has come of them so far. -/
structure Memory where
  tape : Tape
  pointer : Int
  output : Array UInt8
  /-- The length of the tape after each growth, in order. -/
  growths : Array Nat
  deriving DecidableEq

/-- The cell that a pointer names. A negative pointer names one that no tape can have: the one as
far below 2^64 as the pointer is below zero. -/
@[inline] def cellIndex : Int → Nat
  | .ofNat n => n
  | .negSucc n => UInt64.size - 1 - n

namespace Memory

def fresh : Memory := ⟨.fresh, 0, #[], #[]⟩

@[inline] def current (m : Memory) : Except Fault UInt8 := m.tape.get (cellIndex m.pointer)

@[inline] def write : Memory → UInt8 → Except Fault Memory
  | ⟨tape, pointer, output, growths⟩, value =>
    match tape.set (cellIndex pointer) value with
    | .ok tape => .ok ⟨tape, pointer, output, growths⟩
    | .error fault => .error fault

/-- Do an action whose current cell holds `value`. The pointer may leave the tape. -/
@[inline] def act (m : Memory) (value : UInt8) : Action → Except Fault Memory
  | .right => .ok { m with pointer := m.pointer + 1 }
  | .left => .ok { m with pointer := m.pointer - 1 }
  | .increment => m.write (value + 1)
  | .decrement => m.write (value - 1)
  | .print => .ok { m with output := m.output.push value }

/-- Land the pointer on the tape and note a growth. -/
@[inline] def land : Memory → Memory
  | ⟨tape, pointer, output, growths⟩ =>
    match tape.land pointer with
    | ⟨tape, pointer, true⟩ => ⟨tape, pointer, output, growths.push tape.size⟩
    | ⟨tape, pointer, false⟩ => ⟨tape, pointer, output, growths⟩

end Memory

structure State where
  memory : Memory
  counter : Nat
  steps : UInt64
  deriving DecidableEq

namespace State

def start : State := ⟨.fresh, 0, 0⟩

/-- The run is over when no instruction is left. -/
def Halted (p : Program) (s : State) : Prop := p.size ≤ s.counter

instance (p : Program) (s : State) : Decidable (s.Halted p) := inferInstanceAs (Decidable (_ ≤ _))

/-- The greatest number of steps that can be counted. -/
def maxSteps : UInt64 := UInt64.ofNat (UInt64.size - 1)

/-- End a step after which the memory is `memory` before landing, at the instruction `counter`. -/
@[inline] def next (memory : Memory) (counter : Nat) (steps : UInt64) : Except Fault State :=
  if steps < maxSteps then .ok ⟨memory.land, counter + 1, steps + 1⟩
  else .error .stepCounterFull

@[inline] def step (p : Program) (s : State) : Except Fault State := do
  let value ← s.memory.current
  match ← p.fetch s.counter with
  | .act action =>
    let memory ← s.memory.act value action
    next memory s.counter s.steps
  | .loopBegin =>
    if value = 0 then
      let target ← p.jumpTarget s.counter
      next s.memory target s.steps
    else next s.memory s.counter s.steps
  | .loopEnd =>
    if value = 0 then next s.memory s.counter s.steps
    else
      let target ← p.jumpTarget s.counter
      next s.memory target s.steps

theorem steps_of_next {m : Memory} {c : Nat} {n : UInt64} {s : State} (h : next m c n = .ok s) :
    s.steps.toNat = n.toNat + 1 := by
  unfold next at h
  split at h
  · next hlt =>
    cases h
    have hn : n.toNat < 18446744073709551615 := UInt64.lt_iff_toNat_lt.mp hlt
    rw [UInt64.toNat_add]
    simp
    omega
  · cases h

theorem steps_of_step {p : Program} {s s' : State} (h : s.step p = .ok s') :
    s'.steps.toNat = s.steps.toNat + 1 := by
  unfold step at h
  simp only [bind, Except.bind] at h
  repeat' split at h
  all_goals first
    | exact steps_of_next h
    | cases h

end State

end TapeMachine
