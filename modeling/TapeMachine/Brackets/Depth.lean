import TapeMachine.Instr

/-!
# Nesting depth

The depth after a sequence of instructions is the number of loops begun minus the number of loops
ended. A sequence is balanced if the depth never falls below zero and is zero at the end. This is
what matching brackets are, said without a stack and without a table.
-/

namespace TapeMachine

/-- What an instruction adds to the depth. -/
def Instr.rise : Instr → Int
  | act _ => 0
  | loopBegin => 1
  | loopEnd => -1

/-- Loops begun minus loops ended. -/
def depth : List Instr → Int
  | [] => 0
  | i :: is => i.rise + depth is

/-- No loop is ended that was not begun, and none is left open. -/
def Balanced (instrs : List Instr) : Prop :=
  (∀ k ≤ instrs.length, 0 ≤ depth (instrs.take k)) ∧ depth instrs = 0

@[simp] theorem depth_nil : depth [] = 0 := rfl

@[simp] theorem depth_cons (i : Instr) (is : List Instr) : depth (i :: is) = i.rise + depth is :=
  rfl

@[simp] theorem depth_append (is js : List Instr) : depth (is ++ js) = depth is + depth js := by
  induction is with
  | nil => simp
  | cons i is ih => rw [List.cons_append, depth_cons, depth_cons, ih, Int.add_assoc]

@[simp] theorem balanced_nil : Balanced [] := ⟨fun _ _ => by simp, rfl⟩

theorem Balanced.append {is js : List Instr} (hi : Balanced is) (hj : Balanced js) :
    Balanced (is ++ js) := by
  refine ⟨fun k hk => ?_, by rw [depth_append, hi.2, hj.2]; rfl⟩
  rw [List.take_append, depth_append]
  by_cases hle : k ≤ is.length
  · have h := hi.1 k hle
    rw [Nat.sub_eq_zero_of_le hle]
    simpa using h
  · have hlt : is.length ≤ k := Nat.le_of_not_le hle
    rw [List.take_of_length_le hlt, hi.2]
    rw [List.length_append] at hk
    simpa using hj.1 (k - is.length) (by omega)

theorem Balanced.loop {is : List Instr} (hi : Balanced is) :
    Balanced (.loopBegin :: is ++ [.loopEnd]) := by
  refine ⟨fun k hk => ?_, by simp [hi.2, Instr.rise]⟩
  cases k with
  | zero => simp
  | succ k =>
    rw [List.cons_append, List.take_succ_cons, depth_cons, List.take_append, depth_append]
    by_cases hle : k ≤ is.length
    · have h := hi.1 k hle
      rw [Nat.sub_eq_zero_of_le hle]
      simp [Instr.rise]
      omega
    · have hk' : k - is.length = 1 := by
        simp at hk
        omega
      rw [List.take_of_length_le (by omega), hi.2, hk']
      simp [Instr.rise]

end TapeMachine
