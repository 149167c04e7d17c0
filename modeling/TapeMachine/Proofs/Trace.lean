import Mathlib.Data.ENat.Lattice
import TapeMachine.Proofs.Safety

/-!
# The course of a run

`stateAfter p n` is the state after `n` steps from the start, with no budget and nothing else that
would put an end to the steps. A machine that has halted takes no more steps, so there is at most
one number of steps after which it has halted, the `haltingTime`; before that every step is taken.
The step counter holds the number of steps, and what was printed and noted on the way stays
(`Memory.Extends`).
-/

namespace TapeMachine

variable {p : Program} {m m' m'' : Memory} {c c' k n : Nat} {s s' t : State}

/-- The state after `n` steps from the start, if they can all be taken: a machine takes no step once
it has halted, and none when its step counter is full. -/
def stateAfter (p : Program) : Nat → Except Fault State
  | 0 => .ok .start
  | n + 1 => stateAfter p n >>= State.step p

/-- The instruction that is up after `n` steps. -/
def instrAfter (p : Program) (n : Nat) : Option Instr :=
  match stateAfter p n with
  | .ok s => p.instrs[s.counter]?
  | .error _ => none

/-- The instructions that the first `n` steps execute, in order. -/
def executed (p : Program) (n : Nat) : List Instr := (List.range n).filterMap (instrAfter p)

/-- The machine has halted after `n` steps. -/
def HaltedAfter (p : Program) (n : Nat) : Prop := ∃ s, stateAfter p n = .ok s ∧ s.Halted p

/-- The least number of steps after which the machine has halted, infinite if there is none. -/
noncomputable def haltingTime (p : Program) : ℕ∞ := ⨅ n, ⨅ _ : HaltedAfter p n, (n : ℕ∞)

lemma stateAfter_succ_eq_ok_iff :
    stateAfter p (n + 1) = .ok s' ↔ ∃ s, stateAfter p n = .ok s ∧ s.step p = .ok s' :=
  bind_eq_ok_iff

lemma stateAfter_succ (h : stateAfter p n = .ok s) (hstep : s.step p = .ok s') :
    stateAfter p (n + 1) = .ok s' :=
  stateAfter_succ_eq_ok_iff.mpr ⟨s, h, hstep⟩

lemma exists_stateAfter_of_le (h : stateAfter p n = .ok s) (hk : k ≤ n) :
    ∃ t, stateAfter p k = .ok t := by
  induction n generalizing s with
  | zero =>
    have hzero : k = 0 := by omega
    exact ⟨s, hzero ▸ h⟩
  | succ n ih =>
    by_cases heq : k = n + 1
    · exact ⟨s, heq ▸ h⟩
    · obtain ⟨r, hr, -⟩ := stateAfter_succ_eq_ok_iff.mp h
      exact ih hr (by omega)

lemma Reachable.of_stateAfter (h : stateAfter p n = .ok s) : Reachable p s := by
  induction n generalizing s with
  | zero =>
    cases h
    exact .start
  | succ n ih =>
    obtain ⟨r, hr, hstep⟩ := stateAfter_succ_eq_ok_iff.mp h
    exact (ih hr).of_step hstep

lemma placed_of_stateAfter (hp : p.bracketsMatch = true) (h : stateAfter p n = .ok s) :
    Placed p s :=
  (Reachable.of_stateAfter h).placed hp

/-- The step counter holds the number of the steps. -/
theorem toNat_steps_of_stateAfter (h : stateAfter p n = .ok s) : s.steps.toNat = n := by
  induction n generalizing s with
  | zero =>
    cases h
    rfl
  | succ n ih =>
    obtain ⟨r, hr, hstep⟩ := stateAfter_succ_eq_ok_iff.mp h
    rw [State.steps_of_step hstep, ih hr]

lemma steps_lt_maxSteps (h : stateAfter p n = .ok s) (hn : n < State.maxSteps.toNat) :
    s.steps < State.maxSteps := by
  rw [UInt64.lt_iff_toNat_lt, toNat_steps_of_stateAfter h]
  exact hn

/-! ### The instructions executed -/

lemma getElem?_counter_of_step (h : s.step p = .ok s') :
    ∃ instr, p.instrs[s.counter]? = some instr := by
  obtain ⟨memory, counter, heffect, -⟩ := State.exists_effect_of_step h
  obtain ⟨value, -, hrest⟩ := bind_eq_ok_iff.mp heffect
  obtain ⟨instr, hfetch, -⟩ := bind_eq_ok_iff.mp hrest
  exact ⟨instr, Program.fetch_eq_ok_iff.mp hfetch⟩

lemma executed_succ {instr : Instr} (h : stateAfter p n = .ok s)
    (hi : p.instrs[s.counter]? = some instr) : executed p (n + 1) = executed p n ++ [instr] := by
  have hinstr : instrAfter p n = some instr := by
    rw [instrAfter, h]
    exact hi
  rw [executed, List.range_succ, List.filterMap_append, executed]
  simp [hinstr]

lemma length_executed (h : stateAfter p n = .ok s) : (executed p n).length = n := by
  induction n generalizing s with
  | zero => rfl
  | succ n ih =>
    obtain ⟨r, hr, hstep⟩ := stateAfter_succ_eq_ok_iff.mp h
    obtain ⟨instr, hi⟩ := getElem?_counter_of_step hstep
    rw [executed_succ hr hi, List.length_append, ih hr]
    rfl

/-! ### Halting -/

lemma not_halted_of_step (h : s.step p = .ok s') : ¬s.Halted p := by
  obtain ⟨instr, hi⟩ := getElem?_counter_of_step h
  exact not_halted_iff.mpr (Program.lt_size_of_getElem? hi)

lemma not_halted_of_lt (h : stateAfter p n = .ok s) (hk : k < n) (ht : stateAfter p k = .ok t) :
    ¬t.Halted p := by
  obtain ⟨s', hs'⟩ := exists_stateAfter_of_le h (k := k + 1) hk
  obtain ⟨r, hr, hstep⟩ := stateAfter_succ_eq_ok_iff.mp hs'
  rw [ht] at hr
  cases hr
  exact not_halted_of_step hstep

lemma le_of_halted (h : stateAfter p n = .ok s) (hs : s.Halted p) (ht : stateAfter p k = .ok t) :
    k ≤ n := by
  by_contra hlt
  exact not_halted_of_lt ht (Nat.not_le.mp hlt) h hs

theorem haltingTime_eq (h : stateAfter p n = .ok s) (hs : s.Halted p) : haltingTime p = n := by
  apply le_antisymm
  · exact iInf₂_le n ⟨s, h, hs⟩
  · apply le_iInf₂
    rintro k ⟨t, ht, hhalted⟩
    exact Nat.cast_le.mpr (le_of_halted ht hhalted h)

theorem lt_haltingTime (h : stateAfter p n = .ok s) (hs : ¬s.Halted p) :
    (n : ℕ∞) < haltingTime p := by
  have hle : ((n + 1 : Nat) : ℕ∞) ≤ haltingTime p := by
    apply le_iInf₂
    rintro k ⟨t, ht, hhalted⟩
    have hnk : n ≤ k := le_of_halted ht hhalted h
    have hne : n ≠ k := by
      rintro rfl
      rw [h] at ht
      cases ht
      exact hs hhalted
    exact Nat.cast_le.mpr (by omega)
  rw [Nat.cast_add, Nat.cast_one, ENat.add_one_le_iff (ENat.natCast_ne_top n)] at hle
  exact hle

/-! ### What stays -/

/-- All that was printed and noted in `m` is there in `m'` too, with more behind it or not. -/
structure Memory.Extends (m m' : Memory) : Prop where
  output : m.output.toList <+: m'.output.toList
  growths : m.growths.toList <+: m'.growths.toList

namespace Memory

lemma Extends.refl (m : Memory) : m.Extends m :=
  ⟨List.prefix_rfl, List.prefix_rfl⟩

lemma Extends.trans (h : m.Extends m') (h' : m'.Extends m'') : m.Extends m'' :=
  ⟨h.output.trans h'.output, h.growths.trans h'.growths⟩

lemma extends_land (m : Memory) : m.Extends m.land := by
  rw [land_eq]
  refine ⟨List.prefix_rfl, ?_⟩
  dsimp only
  split
  · rw [Array.toList_push]
    exact List.prefix_append _ _
  · exact List.prefix_rfl

lemma extends_act {value : UInt8} {action : Action} (h : m.act value action = .ok m') :
    m.Extends m' := by
  obtain ⟨tape, -, rfl⟩ := exists_of_act h
  refine ⟨?_, List.prefix_rfl⟩
  dsimp only
  split
  · rw [Array.toList_push]
    exact List.prefix_append _ _
  · exact List.prefix_rfl

end Memory

lemma Move.memory_extends (h : Move p m c m' c') : m.Extends m' := by
  obtain rfl | ⟨action, value, -, -, hact⟩ := h.memory_cases
  · exact .refl _
  · exact Memory.extends_act hact

lemma State.memory_extends_of_step (hp : p.bracketsMatch = true) (h : s.step p = .ok s') :
    s.memory.Extends s'.memory := by
  obtain ⟨memory, counter, hmove, rfl⟩ := State.exists_move_of_step hp h
  exact hmove.memory_extends.trans memory.extends_land

/-- What was printed and noted after some steps stays, however many steps follow. -/
theorem memory_extends_of_le (hp : p.bracketsMatch = true) (hk : stateAfter p k = .ok t)
    (hn : stateAfter p n = .ok s) (hle : k ≤ n) : t.memory.Extends s.memory := by
  induction n generalizing s with
  | zero =>
    have hzero : k = 0 := by omega
    rw [hzero, hn] at hk
    cases hk
    exact .refl _
  | succ n ih =>
    by_cases heq : k = n + 1
    · rw [heq, hn] at hk
      cases hk
      exact .refl _
    · obtain ⟨r, hr, hstep⟩ := stateAfter_succ_eq_ok_iff.mp hn
      exact (ih hr (by omega)).trans (State.memory_extends_of_step hp hstep)

end TapeMachine
