import TapeMachine.Proofs.Budget

/-!
# Appended code

Code appended to a program whose brackets match leaves the pairs of the program as they are, so a
move of the program is a move of the longer one (`Move.append`), and for as many steps as the
program takes, the two are in the same state (`stateAfter_append`). The main statement,
`run_before_appended`, says what this means for runs under a budget: a run that does not get to the
end of the program does not see what follows it, and a run that does is how the longer run begins.
-/

namespace TapeMachine

variable {p q : Program} {m m' : Memory} {c c' k n : Nat} {s s' t : State} {budget : UInt64}

/-- The instructions of `q` behind those of `p`. -/
def Program.append (p q : Program) : Program := .ofList (p.toList ++ q.toList)

namespace Program

@[simp] lemma toList_append (p q : Program) : (p.append q).toList = p.toList ++ q.toList := by
  simp [append, toList]

@[simp] lemma size_append (p q : Program) : (p.append q).size = p.size + q.size := by
  rw [← length_toList, toList_append, List.length_append, length_toList, length_toList]

lemma bracketsMatch_append (hp : p.bracketsMatch = true)
    (hq : q.bracketsMatch = true) : (p.append q).bracketsMatch = true := by
  rw [bracketsMatch_iff] at hp hq ⊢
  rw [toList_append]
  exact hp.append hq

lemma getElem?_append_left {i : Instr} (h : p.instrs[c]? = some i) (q : Program) :
    (p.append q).instrs[c]? = some i := by
  rw [← getElem?_toList] at h ⊢
  rw [toList_append, List.getElem?_append_left (lt_length_of_getElem? h)]
  exact h

end Program

/-! ### The two machines in step -/

theorem Move.append (h : Move p m c m' c') (q : Program) : Move (p.append q) m c m' c' := by
  have hpaired : ∀ {start finish}, Paired p.toList start finish →
      Paired (p.append q).toList start finish := by
    intro start finish hpair
    rw [Program.toList_append]
    exact hpair.append _
  cases h with
  | act hi hv hm => exact .act (Program.getElem?_append_left hi q) hv hm
  | pass hv hpair => exact .pass hv (hpaired hpair)
  | enter hi hv hne => exact .enter (Program.getElem?_append_left hi q) hv hne
  | leave hi hv => exact .leave (Program.getElem?_append_left hi q) hv
  | «repeat» hv hne hpair => exact .repeat hv hne (hpaired hpair)

lemma State.step_append (hp : p.bracketsMatch = true) (hq : q.bracketsMatch = true)
    (h : s.step p = .ok s') : s.step (p.append q) = .ok s' := by
  rw [State.step_eq] at h ⊢
  obtain ⟨⟨memory, counter⟩, heffect, hnext⟩ := bind_eq_ok_iff.mp h
  have hmove := (move_of_effect hp heffect).append q
  rw [hmove.effect_eq (Program.bracketsMatch_append hp hq)]
  exact hnext

/-- As long as the program takes steps, the longer one takes the same. -/
theorem stateAfter_append (hp : p.bracketsMatch = true) (hq : q.bracketsMatch = true)
    (h : stateAfter p n = .ok s) : stateAfter (p.append q) n = .ok s := by
  induction n generalizing s with
  | zero => exact h
  | succ n ih =>
    obtain ⟨r, hr, hstep⟩ := stateAfter_succ_eq_ok_iff.mp h
    exact stateAfter_succ (ih hr) (State.step_append hp hq hstep)

lemma State.not_halted_append (h : s.counter < p.size + q.size) : ¬s.Halted (p.append q) := by
  rw [not_halted_iff, Program.size_append]
  exact h

namespace StopsAfter

lemma append_of_spent (hp : p.bracketsMatch = true) (hq : q.bracketsMatch = true)
    (h : StopsAfter p budget n s) (hn : n = budget.toNat + 1) :
    StopsAfter (p.append q) budget n s :=
  ⟨stateAfter_append hp hq h.reached, h.le, Or.inr hn⟩

lemma le_append (hp : p.bracketsMatch = true) (hq : q.bracketsMatch = true)
    (h : StopsAfter p budget n s) (h' : StopsAfter (p.append q) budget k t) : n ≤ k := by
  obtain hhalted | hspent := h'.stop
  · exact le_of_halted h'.reached hhalted (stateAfter_append hp hq h.reached)
  · exact hspent ▸ h.le

end StopsAfter

/-- Code behind a program makes no difference to a run that times out in the program. A run that
comes to the end of the program is how the run of both begins, and if its budget is spent by then,
the run of both times out there. -/
theorem run_before_appended (p q : Program) (hp : p.bracketsMatch = true)
    (hq : q.bracketsMatch = true) (budget : UInt64) (hb : budget < State.maxSteps)
    (settings : Settings) :
    (p.append q).bracketsMatch = true ∧
    (∀ output steps, (run settings p budget).result = .ok (.timedOut output steps) →
      (run settings (p.append q) budget).result = .ok (.timedOut output steps)) ∧
    ∀ output steps, (run settings p budget).result = .ok (.completed output steps) →
      (∃ outcome, (run ⟨true⟩ (p.append q) budget).result = .ok outcome ∧
        output.toList <+: outcome.output.toList ∧ steps ≤ outcome.steps) ∧
      (steps.toNat = budget.toNat + 1 → ¬q.isEmpty →
        (run ⟨true⟩ (p.append q) budget).result = .ok (.timedOut output steps)) := by
  have hpq := Program.bracketsMatch_append hp hq
  obtain ⟨n, s, hstop, -⟩ := exists_stopsAfter hp hb
  obtain ⟨k, t, hstop', -⟩ := exists_stopsAfter hpq hb
  have hcounter := (placed_of_stateAfter hp hstop.reached).counter_le
  simp only [hstop.result_eq hp hb, hstop'.result_eq hpq hb, Except.ok.injEq]
  refine ⟨hpq, fun output steps h => ?_, fun output steps h => ⟨?_, fun hspent hq' => ?_⟩⟩
  · have hs := Outcome.not_halted_of_ofState_eq h
    have hsame := (hstop.append_of_spent hp hq (hstop.eq_of_not_halted hs)).unique hstop'
    have hlt := not_halted_iff.mp hs
    rw [← hsame, Outcome.ofState_of_not_halted (State.not_halted_append (by omega)), ← h,
      Outcome.ofState_of_not_halted hs]
  · have hs := Outcome.halted_of_ofState_eq h
    have hle := hstop.le_append hp hq hstop'
    have hreached := stateAfter_append hp hq hstop.reached
    rw [Outcome.ofState_of_halted hs] at h
    cases h
    refine ⟨_, rfl, ?_, ?_⟩
    · rw [Outcome.output_ofState rfl]
      exact (memory_extends_of_le hpq hreached hstop'.reached hle).output
    · rw [Outcome.steps_ofState, UInt64.le_iff_toNat_le, toNat_steps_of_stateAfter hstop.reached,
        toNat_steps_of_stateAfter hstop'.reached]
      exact hle
  · have hs := Outcome.halted_of_ofState_eq h
    rw [Outcome.ofState_of_halted hs] at h
    cases h
    have hn : n = budget.toNat + 1 := (toNat_steps_of_stateAfter hstop.reached).symm.trans hspent
    have hsame := (hstop.append_of_spent hp hq hn).unique hstop'
    have hsize : 0 < q.size := by
      rw [Program.isEmpty, Array.isEmpty_iff_size_eq_zero] at hq'
      exact Nat.pos_of_ne_zero hq'
    rw [← hsame, Outcome.ofState_of_not_halted (State.not_halted_append (by omega))]
    rfl

/-- A loop that prints, gone through once within the budget, and another loop behind it. -/
theorem run_before_appended_loop :
    (run ⟨true⟩ ((Program.ofList [.act .increment, .loopBegin, .act .right, .act .increment,
      .act .print, .act .left, .act .decrement, .loopEnd]).append
        (.ofList [.loopBegin, .act .right, .loopEnd])) 7).result = .ok (.timedOut #[1] 8) :=
  ((run_before_appended _ _ (by decide) (by decide) 7 (by decide) ⟨false⟩).2.2 #[1] 8
    (by decide +kernel)).2 rfl (by decide)

end TapeMachine
