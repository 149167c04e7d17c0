import TapeMachine.Fault
import TapeMachine.Instr

/-!
# Searching for the other end of a loop

Two searches that need no table. They walk away from a bracket and count the loops they are in, the
one they started from included, so that inner loops are skipped: the place where the count comes
to zero is the partner. The count has no value below zero; `countLoops` is at fault if one were
asked for.
-/

namespace TapeMachine

/-- How many loops a walk is in after it has passed an instruction, if `entry` is the bracket by
which it enters a loop and `exit` the one by which it leaves a loop. -/
def countLoops (entry exit instr : Instr) (depth : Nat) : Except Fault Nat :=
  if instr = entry then .ok (depth + 1)
  else if instr = exit then
    if depth = 0 then .error .depthBelowZero else .ok (depth - 1)
  else .ok depth

/-- The first place at or after `index` where a walk that is in `depth` loops has left them all. -/
def searchForward (instrs : Array Instr) (index depth : Nat) : Except Fault (Option Nat) :=
  if h : index < instrs.size then
    match countLoops .loopBegin .loopEnd instrs[index] depth with
    | .ok 0 => .ok (some index)
    | .ok (depth + 1) => searchForward instrs (index + 1) (depth + 1)
    | .error fault => .error fault
  else
    .ok none
termination_by instrs.size - index

/-- The last place before `index` where a walk back that is in `depth` loops has left them all. -/
def searchBackward (instrs : Array Instr) : (index depth : Nat) → Except Fault (Option Nat)
  | 0, _ => .ok none
  | index + 1, depth =>
    match instrs[index]? with
    | none => searchBackward instrs index depth
    | some instr =>
      match countLoops .loopEnd .loopBegin instr depth with
      | .ok 0 => .ok (some index)
      | .ok (depth + 1) => searchBackward instrs index (depth + 1)
      | .error fault => .error fault

end TapeMachine
