import TapeMachine.Proofs.Trace

/-!
# Budgets

A run is the course of the machine cut off at one step more than its budget (`StopsAfter`). So a
program is completed exactly if its halting time is at most that (`budget_exact`), and of two runs
of one program the one with the smaller budget is a beginning of the other (`budgets_coherent`).
-/

namespace TapeMachine

variable {p : Program} {budget budget' : UInt64} {settings : Settings} {k n : Nat} {s t : State}

/-- A run stops after `n` steps in the state `s`: no instruction is left, or the budget is spent. -/
structure StopsAfter (p : Program) (budget : UInt64) (n : Nat) (s : State) : Prop where
  reached : stateAfter p n = .ok s
  le : n ≤ budget.toNat + 1
  stop : s.Halted p ∨ n = budget.toNat + 1

/-- How a run stops that stops in the state `s`. -/
def Stop.ofState (p : Program) (s : State) : Stop := if s.Halted p then .halted s else .exhausted s

/-- The outcome of a run that stops in the state `s`. -/
def Outcome.ofState (p : Program) (settings : Settings) (s : State) : Outcome :=
  if s.Halted p then .completed s.memory.output s.steps
  else .timedOut (if settings.keepOutput then s.memory.output else #[]) s.steps

/-! ### Where a run stops -/

lemma exists_stopsAfter_drive (hp : p.bracketsMatch = true) (hb : budget < State.maxSteps)
    (h : stateAfter p n = .ok s) (hn : n ≤ budget.toNat + 1) :
    ∃ k t, StopsAfter p budget k t ∧ drive p budget s = .ofState p t := by
  -- the counter is the number of steps, so the budget is tested against that number
  have hsteps := toNat_steps_of_stateAfter h
  fun_induction drive p budget s generalizing n with
  | case1 s hh =>
    refine ⟨n, s, ⟨h, hn, Or.inl hh⟩, ?_⟩
    rw [Stop.ofState, if_pos hh]
  | case2 s hh hspent =>
    have hlt : budget.toNat < n := by
      rw [← hsteps]
      exact UInt64.lt_iff_toNat_lt.mp hspent
    refine ⟨n, s, ⟨h, hn, Or.inr (by omega)⟩, ?_⟩
    rw [Stop.ofState, if_neg hh]
  | case3 s hh hleft s' hstep ih =>
    have hle : n ≤ budget.toNat := by
      rw [← hsteps]
      exact UInt64.le_iff_toNat_le.mp (UInt64.not_lt.mp hleft)
    have hnext := stateAfter_succ h hstep
    exact ih hnext (by omega) (toNat_steps_of_stateAfter hnext)
  | case4 s hh hleft fault hstep =>
    have hfull : s.steps < State.maxSteps := UInt64.lt_of_le_of_lt (UInt64.not_lt.mp hleft) hb
    obtain ⟨s', hok⟩ := (placed_of_stateAfter hp h).exists_step hp hh hfull
    rw [hok] at hstep
    cases hstep

/-- There is one state in which the run stops, with whatever settings. -/
theorem exists_stopsAfter (hp : p.bracketsMatch = true) (hb : budget < State.maxSteps) :
    ∃ n s, StopsAfter p budget n s ∧
      ∀ settings, run settings p budget = .ofStop settings ⟨p.size, budget⟩ (.ofState p s) := by
  obtain ⟨n, s, hstop, hdrive⟩ :=
    exists_stopsAfter_drive (n := 0) (s := .start) hp hb rfl (Nat.zero_le _)
  refine ⟨n, s, hstop, fun settings => ?_⟩
  rw [run_eq_ofStop hp, hdrive]

namespace StopsAfter

lemma eq_of_not_halted (h : StopsAfter p budget n s) (hs : ¬s.Halted p) : n = budget.toNat + 1 :=
  h.stop.resolve_left hs

lemma haltingTime_le (h : StopsAfter p budget n s) (hs : s.Halted p) :
    haltingTime p ≤ budget.toNat + 1 := by
  rw [haltingTime_eq h.reached hs]
  exact_mod_cast h.le

lemma lt_haltingTime (h : StopsAfter p budget n s) (hs : ¬s.Halted p) :
    budget.toNat + 1 < haltingTime p := by
  have hlt := TapeMachine.lt_haltingTime h.reached hs
  rw [h.eq_of_not_halted hs] at hlt
  exact_mod_cast hlt

lemma halted_iff (h : StopsAfter p budget n s) :
    s.Halted p ↔ haltingTime p ≤ budget.toNat + 1 := by
  refine ⟨h.haltingTime_le, fun hle => ?_⟩
  by_contra hs
  exact absurd hle (not_le.mpr (h.lt_haltingTime hs))

/-- Under a smaller budget the run does not stop later. -/
lemma mono (h : StopsAfter p budget n s) (h' : StopsAfter p budget' k t) (hle : budget ≤ budget') :
    n ≤ k := by
  obtain hhalted | hspent := h'.stop
  · exact le_of_halted h'.reached hhalted h.reached
  · have hbudgets : budget.toNat ≤ budget'.toNat := UInt64.le_iff_toNat_le.mp hle
    have hn := h.le
    omega

lemma eq_of_halted (h : StopsAfter p budget n s) (h' : StopsAfter p budget' k t)
    (hle : budget ≤ budget') (hs : s.Halted p) : s = t := by
  have hnk := h.mono h' hle
  have hkn := le_of_halted h.reached hs h'.reached
  have heq : n = k := by omega
  have ht := h'.reached
  rw [← heq, h.reached] at ht
  cases ht
  rfl

lemma memory_extends (hp : p.bracketsMatch = true) (h : StopsAfter p budget n s)
    (h' : StopsAfter p budget' k t) (hle : budget ≤ budget') : s.memory.Extends t.memory :=
  memory_extends_of_le hp h.reached h'.reached (h.mono h' hle)

lemma steps_le (h : StopsAfter p budget n s) (h' : StopsAfter p budget' k t)
    (hle : budget ≤ budget') : s.steps ≤ t.steps := by
  rw [UInt64.le_iff_toNat_le, toNat_steps_of_stateAfter h.reached,
    toNat_steps_of_stateAfter h'.reached]
  exact h.mono h' hle

lemma unique (h : StopsAfter p budget n s) (h' : StopsAfter p budget k t) : s = t := by
  have heq : n = k := Nat.le_antisymm (h.mono h' UInt64.le_rfl) (h'.mono h UInt64.le_rfl)
  have ht := h'.reached
  rw [← heq, h.reached] at ht
  cases ht
  rfl

end StopsAfter

/-! ### What a run reports of where it stops -/

namespace Outcome

lemma ofState_of_halted (hs : s.Halted p) :
    ofState p settings s = .completed s.memory.output s.steps :=
  if_pos hs

lemma ofState_of_not_halted (hs : ¬s.Halted p) : ofState p settings s =
    .timedOut (if settings.keepOutput then s.memory.output else #[]) s.steps :=
  if_neg hs

@[simp] lemma steps_ofState (p : Program) (settings : Settings) (s : State) :
    (ofState p settings s).steps = s.steps := by
  by_cases hs : s.Halted p
  · rw [ofState_of_halted hs]
    rfl
  · rw [ofState_of_not_halted hs]
    rfl

lemma output_ofState (hkeep : settings.keepOutput = true) :
    (ofState p settings s).output = s.memory.output := by
  by_cases hs : s.Halted p
  · rw [ofState_of_halted hs]
    rfl
  · rw [ofState_of_not_halted hs, hkeep]
    rfl

lemma halted_of_ofState_eq {output : Array UInt8} {steps : UInt64}
    (h : ofState p settings s = .completed output steps) : s.Halted p := by
  by_contra hs
  rw [ofState_of_not_halted hs] at h
  cases h

lemma not_halted_of_ofState_eq {output : Array UInt8} {steps : UInt64}
    (h : ofState p settings s = .timedOut output steps) : ¬s.Halted p := by
  intro hs
  rw [ofState_of_halted hs] at h
  cases h

end Outcome

/-- Whether a record says that the tape grew. -/
def Event.isGrowth : Event → Bool
  | tapeGrew _ => true
  | _ => false

namespace Report

variable {span : Span}

lemma result_ofStop_ofState : (ofStop settings span (.ofState p s)).result =
    .ok (.ofState p settings s) := by
  unfold Stop.ofState
  by_cases hs : s.Halted p
  · rw [if_pos hs, Outcome.ofState_of_halted hs]
    rfl
  · rw [if_neg hs, Outcome.ofState_of_not_halted hs]
    rfl

lemma growths_ofStop_ofState : (ofStop settings span (.ofState p s)).growths =
    s.memory.growths := by
  unfold Stop.ofState
  split <;> rfl

lemma growthEvents_ofStop_ofState :
    (ofStop settings span (.ofState p s)).events.filter Event.isGrowth =
      s.memory.growths.toList.map .tapeGrew := by
  have hgrowths : (s.memory.growths.toList.map Event.tapeGrew).filter Event.isGrowth =
      s.memory.growths.toList.map .tapeGrew := by
    rw [List.filter_eq_self]
    intro event hevent
    obtain ⟨length, -, rfl⟩ := List.mem_map.mp hevent
    rfl
  rw [events, List.filter_append, growths_ofStop_ofState, hgrowths]
  unfold Stop.ofState
  split <;> simp [ofStop, Event.isGrowth]

end Report

/-- The place where a run stops gives its result. -/
theorem StopsAfter.result_eq (hp : p.bracketsMatch = true) (hb : budget < State.maxSteps)
    (h : StopsAfter p budget n s) (settings : Settings) :
    (run settings p budget).result = .ok (.ofState p settings s) := by
  obtain ⟨k, t, ht, hrun⟩ := exists_stopsAfter hp hb
  rw [hrun, Report.result_ofStop_ofState, h.unique ht]

/-- Under a budget that is not the greatest, a program whose brackets match is completed if its
halting time is at most one more than the budget, and it times out after that many steps if not.
The step counter holds the number of instructions executed all the time. -/
theorem budget_exact (p : Program) (hp : p.bracketsMatch = true) (budget : UInt64)
    (hb : budget < State.maxSteps) (settings : Settings) :
    (∃ outcome, (run settings p budget).result = .ok outcome) ∧
    (haltingTime p ≤ budget.toNat + 1 → ∃ (n : Nat) (s : State), haltingTime p = n ∧
      stateAfter p n = .ok s ∧ s.Halted p ∧ s.steps.toNat = n ∧
        (run settings p budget).result = .ok (.completed s.memory.output s.steps)) ∧
    (budget.toNat + 1 < haltingTime p → ∃ s, stateAfter p (budget.toNat + 1) = .ok s ∧
      ¬s.Halted p ∧ s.steps.toNat = budget.toNat + 1 ∧ (run settings p budget).result =
        .ok (.timedOut (if settings.keepOutput then s.memory.output else #[]) s.steps)) ∧
    (haltingTime p = budget.toNat + 1 → ∃ output steps, steps.toNat = budget.toNat + 1 ∧
      (run settings p budget).result = .ok (.completed output steps)) ∧
    ∀ n s, stateAfter p n = .ok s → s.steps.toNat = n ∧ (executed p n).length = n := by
  obtain ⟨n, s, hstop, hrun⟩ := exists_stopsAfter hp hb
  have hresult : (run settings p budget).result = .ok (.ofState p settings s) := by
    rw [hrun, Report.result_ofStop_ofState]
  have hsteps := toNat_steps_of_stateAfter hstop.reached
  have hcompleted : haltingTime p ≤ budget.toNat + 1 → s.Halted p := by
    intro hle
    by_contra hs
    exact absurd hle (not_le.mpr (hstop.lt_haltingTime hs))
  refine ⟨⟨_, hresult⟩, fun hle => ?_, fun hlt => ?_, fun heq => ?_, fun n s h => ?_⟩
  · have hs := hcompleted hle
    rw [hresult, Outcome.ofState_of_halted hs]
    exact ⟨n, s, haltingTime_eq hstop.reached hs, hstop.reached, hs, hsteps, rfl⟩
  · have hs : ¬s.Halted p := fun hs => absurd (hstop.haltingTime_le hs) (not_le.mpr hlt)
    have hn := hstop.eq_of_not_halted hs
    rw [hresult, Outcome.ofState_of_not_halted hs]
    exact ⟨s, hn ▸ hstop.reached, hs, hn ▸ hsteps, rfl⟩
  · have hs := hcompleted heq.le
    have hn : (n : ℕ∞) = budget.toNat + 1 := by rw [← haltingTime_eq hstop.reached hs, heq]
    rw [hresult, Outcome.ofState_of_halted hs]
    exact ⟨s.memory.output, s.steps, hsteps.trans (by exact_mod_cast hn), rfl⟩
  · exact ⟨toNat_steps_of_stateAfter h, length_executed h⟩

/-- With a budget of one less than its halting time a program is still completed. -/
theorem budget_exact_last_step :
    haltingTime (.ofList [.act .increment, .act .print]) = 2 ∧ ∃ output steps, steps.toNat = 2 ∧
      (run ⟨false⟩ (.ofList [.act .increment, .act .print]) 1).result =
        .ok (.completed output steps) := by
  have htime : haltingTime (.ofList [.act .increment, .act .print]) = (2 : Nat) :=
    haltingTime_eq (s := ⟨⟨⟨#[1]⟩, 0, #[1], #[]⟩, 2, 2⟩) rfl (by decide)
  exact ⟨htime, (budget_exact (.ofList [.act .increment, .act .print]) (by decide) 1 (by decide)
    ⟨false⟩).2.2.2.1 htime⟩

/-- Of two runs of a program, the one with the smaller budget is a beginning of the other. If it
comes to an end, the other is the same run; if it does not, its steps are fewer or as many, and what
it printed and how the tape grew in it is how the other begins. -/
theorem budgets_coherent (p : Program) (hp : p.bracketsMatch = true) (budget budget' : UInt64)
    (hle : budget ≤ budget') (hb : budget' < State.maxSteps) :
    (∀ settings settings' output steps,
      (run settings p budget).result = .ok (.completed output steps) →
        (run settings' p budget').result = .ok (.completed output steps)) ∧
    (∀ settings settings' output' steps',
      (run settings' p budget').result = .ok (.timedOut output' steps') →
        ∃ output steps, (run settings p budget).result = .ok (.timedOut output steps)) ∧
    (∀ settings settings' : Settings, ∃ outcome outcome',
      (run settings p budget).result = .ok outcome ∧
      (run settings' p budget').result = .ok outcome' ∧ outcome.steps ≤ outcome'.steps ∧
        (settings.keepOutput = true → settings'.keepOutput = true →
          outcome.output.toList <+: outcome'.output.toList)) ∧
    (∀ settings settings', (run settings p budget).events.filter Event.isGrowth <+:
      (run settings' p budget').events.filter Event.isGrowth) ∧
    ∀ settings output steps, (run settings p budget).result = .ok (.timedOut output steps) →
      settings.keepOutput = false → output = #[] := by
  obtain ⟨n, s, hstop, hrun⟩ := exists_stopsAfter hp (UInt64.lt_of_le_of_lt hle hb)
  obtain ⟨n', s', hstop', hrun'⟩ := exists_stopsAfter hp hb
  have hextends := hstop.memory_extends hp hstop' hle
  simp only [hrun, hrun', Report.result_ofStop_ofState, Report.growthEvents_ofStop_ofState,
    Except.ok.injEq]
  refine ⟨fun settings settings' output steps h => ?_, fun settings settings' output steps h => ?_,
    fun settings settings' => ?_, fun _ _ => hextends.growths.map _,
    fun settings output steps h hkeep => ?_⟩
  · have hs := Outcome.halted_of_ofState_eq h
    have heq := hstop.eq_of_halted hstop' hle hs
    rw [Outcome.ofState_of_halted hs] at h
    rw [← heq, Outcome.ofState_of_halted hs, h]
  · have hs' := Outcome.not_halted_of_ofState_eq h
    have hs : ¬s.Halted p := by
      intro hs
      have heq := hstop.eq_of_halted hstop' hle hs
      exact hs' (heq ▸ hs)
    exact ⟨_, _, Outcome.ofState_of_not_halted hs⟩
  · refine ⟨_, _, rfl, rfl, ?_, fun hkeep hkeep' => ?_⟩
    · rw [Outcome.steps_ofState, Outcome.steps_ofState]
      exact hstop.steps_le hstop' hle
    · rw [Outcome.output_ofState hkeep, Outcome.output_ofState hkeep']
      exact hextends.output
  · rw [Outcome.ofState_of_not_halted (Outcome.not_halted_of_ofState_eq h), hkeep] at h
    cases h
    rfl

/-- A loop that prints and grows the tape for ever, cut off after four and after eight steps. -/
theorem budgets_coherent_growing :
    (run ⟨true⟩ (.ofList [.act .increment, .loopBegin, .act .print, .act .right, .act .increment,
      .loopEnd]) 3).events.filter Event.isGrowth <+:
    (run ⟨true⟩ (.ofList [.act .increment, .loopBegin, .act .print, .act .right, .act .increment,
      .loopEnd]) 7).events.filter Event.isGrowth :=
  (budgets_coherent (.ofList [.act .increment, .loopBegin, .act .print, .act .right,
    .act .increment, .loopEnd]) (by decide) 3 7 (by decide) (by decide)).2.2.2.1 ⟨true⟩ ⟨true⟩

end TapeMachine
