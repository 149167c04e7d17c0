import TapeMachine.Proofs.Budget

/-!
# The step counter

The counter of the steps holds numbers below 2^64 and a step is refused when it is full. Under every
budget but the greatest the budget is spent before that. Under the greatest one it is never spent,
so that a machine which is still going after 2^64 - 1 steps is at fault at the next one
(`drive_maxSteps`). The main statement, `ends_in_budget_iff`, says exactly when a run ends within
its budget; `spinning` is a program for which it does not.
-/

namespace TapeMachine

variable {p : Program} {settings : Settings} {budget : UInt64} {n : Nat} {s : State}

/-- A run has an outcome, and the steps it counts are the instructions it executed, at most one more
than its budget. -/
def EndsInBudget (settings : Settings) (p : Program) (budget : UInt64) : Prop :=
  ∃ outcome s, (run settings p budget).result = .ok outcome ∧
    stateAfter p outcome.steps.toNat = .ok s ∧
    (executed p outcome.steps.toNat).length = outcome.steps.toNat ∧
    outcome.steps.toNat ≤ budget.toNat + 1

/-- The machine has not halted when its step counter is full. -/
structure GoesOnWhenFull (p : Program) (s : State) : Prop where
  reached : stateAfter p State.maxSteps.toNat = .ok s
  not_halted : ¬s.Halted p
  step_eq : s.step p = .error .stepCounterFull

lemma State.le_maxSteps (n : UInt64) : n ≤ State.maxSteps :=
  UInt64.le_iff_toNat_le.mpr (Nat.le_of_lt_succ n.toNat_lt)

lemma State.eq_maxSteps {n : UInt64} (h : ¬n < State.maxSteps) : n = State.maxSteps :=
  UInt64.le_antisymm (State.le_maxSteps n) (UInt64.not_lt.mp h)

lemma le_maxSteps_of_stateAfter (h : stateAfter p n = .ok s) : n ≤ State.maxSteps.toNat := by
  rw [← toNat_steps_of_stateAfter h]
  exact UInt64.le_iff_toNat_le.mp (State.le_maxSteps s.steps)

lemma goesOnWhenFull_of_not_halted (hp : p.bracketsMatch = true)
    (h : stateAfter p State.maxSteps.toNat = .ok s) (hh : ¬s.Halted p) : GoesOnWhenFull p s := by
  have hsteps : s.steps = State.maxSteps := UInt64.toNat_inj.mp (toNat_steps_of_stateAfter h)
  obtain ⟨memory, counter, hsafe⟩ := (placed_of_stateAfter hp h).exists_safeStep hp hh
  refine ⟨h, hh, ?_⟩
  rw [hsafe.step_eq, hsteps]
  exact if_neg (UInt64.lt_irrefl _)

lemma GoesOnWhenFull.not_haltedAfter (h : GoesOnWhenFull p s) (n : Nat) : ¬HaltedAfter p n := by
  rintro ⟨t, ht, hhalted⟩
  have heq : n = State.maxSteps.toNat :=
    Nat.le_antisymm (le_maxSteps_of_stateAfter ht) (le_of_halted ht hhalted h.reached)
  rw [heq, h.reached] at ht
  cases ht
  exact h.not_halted hhalted

/-- Under the greatest budget the machine goes on until it has halted or its step counter is
full. -/
theorem drive_maxSteps (hp : p.bracketsMatch = true) (h : stateAfter p n = .ok s) :
    (∃ k t, stateAfter p k = .ok t ∧ t.Halted p ∧ drive p State.maxSteps s = .halted t) ∨
      ∃ t, GoesOnWhenFull p t ∧
        drive p State.maxSteps s = .broken (t.growthsAtFault p) .stepCounterFull := by
  fun_induction drive p State.maxSteps s generalizing n with
  | case1 s hh => exact Or.inl ⟨n, s, h, hh, rfl⟩
  | case2 s hh hspent => exact absurd hspent (UInt64.not_lt.mpr (State.le_maxSteps s.steps))
  | case3 s hh hleft s' hstep ih => exact ih (stateAfter_succ h hstep)
  | case4 s hh hleft fault hstep =>
    -- with room in the counter a step could be taken
    have hsteps : s.steps = State.maxSteps := by
      apply State.eq_maxSteps
      intro hroom
      obtain ⟨s', hok⟩ := (placed_of_stateAfter hp h).exists_step hp hh hroom
      rw [hok] at hstep
      cases hstep
    have hn : n = State.maxSteps.toNat := by rw [← toNat_steps_of_stateAfter h, hsteps]
    have hfull := goesOnWhenFull_of_not_halted hp (hn ▸ h) hh
    rw [hfull.step_eq] at hstep
    cases hstep
    exact Or.inr ⟨s, hfull, rfl⟩

/-- The machine halts while its steps can be counted, or it is still going after that. -/
lemma haltedAfter_or_goesOn (hp : p.bracketsMatch = true) :
    (∃ n, HaltedAfter p n) ∨ ∃ s, GoesOnWhenFull p s := by
  obtain ⟨k, t, ht, hhalted, -⟩ | ⟨t, hfull, -⟩ := drive_maxSteps (n := 0) (s := .start) hp rfl
  · exact Or.inl ⟨k, t, ht, hhalted⟩
  · exact Or.inr ⟨t, hfull⟩

lemma GoesOnWhenFull.eq (h : GoesOnWhenFull p s) {t : State} (ht : GoesOnWhenFull p t) :
    t = s := by
  have hreached := h.reached
  rw [ht.reached] at hreached
  cases hreached
  rfl

lemma GoesOnWhenFull.run_eq (hp : p.bracketsMatch = true) (h : GoesOnWhenFull p s)
    (settings : Settings) : run settings p State.maxSteps =
      ⟨⟨p.size, State.maxSteps⟩, s.growthsAtFault p, none, .error (.broken .stepCounterFull)⟩ := by
  rw [run_eq_ofStop hp]
  obtain ⟨k, t, ht, hhalted, -⟩ | ⟨t, ht, hdrive⟩ := drive_maxSteps (n := 0) (s := .start) hp rfl
  · exact absurd ⟨t, ht, hhalted⟩ (h.not_haltedAfter k)
  · rw [hdrive, h.eq ht]
    rfl

lemma run_maxSteps_of_goesOn (hp : p.bracketsMatch = true) (h : GoesOnWhenFull p s)
    (settings : Settings) :
    (run settings p State.maxSteps).result = .error (.broken .stepCounterFull) := by
  rw [h.run_eq hp]

/-- The log of a run that overruns the greatest budget has no closing record. It holds every growth
of the tape, that of the step which cannot be counted among them. -/
theorem GoesOnWhenFull.noted (hp : p.bracketsMatch = true) (h : GoesOnWhenFull p s)
    (settings : Settings) : ∃ memory counter,
      effect p s.memory s.counter = .ok (memory, counter) ∧
        (run settings p State.maxSteps).events = memory.land.growths.toList.map .tapeGrew := by
  obtain ⟨memory, counter, hsafe⟩ := (placed_of_stateAfter hp h.reached).exists_safeStep hp
    h.not_halted
  have huncounted : { s with steps := 0 }.step p = .ok ⟨memory.land, counter + 1, 1⟩ := by
    rw [State.step_eq, hsafe.effect_eq]
    rfl
  refine ⟨memory, counter, hsafe.effect_eq, ?_⟩
  rw [h.run_eq hp, Report.events, State.growthsAtFault, huncounted]
  exact List.append_nil _

/-! ### Runs that end within their budget -/

lemma endsInBudget_of_stateAfter (h : stateAfter p n = .ok s) (hn : n ≤ budget.toNat + 1)
    {outcome : Outcome} (hrun : (run settings p budget).result = .ok outcome)
    (hsteps : outcome.steps = s.steps) : EndsInBudget settings p budget := by
  have hcount : outcome.steps.toNat = n := by rw [hsteps, toNat_steps_of_stateAfter h]
  rw [← hcount] at h hn
  exact ⟨outcome, s, hrun, h, length_executed h, hn⟩

lemma endsInBudget_of_lt (hp : p.bracketsMatch = true) (hb : budget < State.maxSteps)
    (settings : Settings) : EndsInBudget settings p budget := by
  obtain ⟨n, s, hstop, -⟩ := exists_stopsAfter hp hb
  exact endsInBudget_of_stateAfter hstop.reached hstop.le (hstop.result_eq hp hb settings)
    (Outcome.steps_ofState p settings s)

lemma endsInBudget_of_haltedAfter (hp : p.bracketsMatch = true) (h : HaltedAfter p n)
    (settings : Settings) (budget : UInt64) : EndsInBudget settings p budget := by
  by_cases hb : budget < State.maxSteps
  · exact endsInBudget_of_lt hp hb settings
  · obtain ⟨k, t, ht, hhalted, hdrive⟩ | ⟨t, hfull, -⟩ :=
      drive_maxSteps (n := 0) (s := .start) hp rfl
    · rw [State.eq_maxSteps hb]
      have hrun : (run settings p State.maxSteps).result =
          .ok (.completed t.memory.output t.steps) := by
        rw [run_eq_ofStop hp, hdrive]
        rfl
      exact endsInBudget_of_stateAfter ht (Nat.le_succ_of_le (le_maxSteps_of_stateAfter ht)) hrun
        rfl
    · exact absurd h (hfull.not_haltedAfter n)

lemma GoesOnWhenFull.lt_of_endsInBudget (hp : p.bracketsMatch = true) (h : GoesOnWhenFull p s)
    (hends : EndsInBudget settings p budget) : budget < State.maxSteps := by
  by_contra hb
  obtain ⟨outcome, t, hrun, -⟩ := hends
  rw [State.eq_maxSteps hb, run_maxSteps_of_goesOn hp h] at hrun
  cases hrun

/-- In every state of a run the step counter holds the number of instructions executed. The run ends
within its budget if the budget is not the greatest or if the machine halts while its steps can be
counted. Otherwise it does not end so: the machine is still going after 2^64 - 1 steps, and the next
one is at fault. -/
theorem ends_in_budget_iff (p : Program) (hp : p.bracketsMatch = true) :
    (∀ n s, stateAfter p n = .ok s → s.steps.toNat = n ∧ (executed p n).length = n) ∧
    (∀ settings budget, EndsInBudget settings p budget ↔
      budget < State.maxSteps ∨ ∃ n, HaltedAfter p n) ∧
    ((¬∃ n, HaltedAfter p n) → (∃ s, GoesOnWhenFull p s) ∧ ∀ settings,
      (run settings p State.maxSteps).result = .error (.broken .stepCounterFull)) := by
  refine ⟨fun n s h => ⟨toNat_steps_of_stateAfter h, length_executed h⟩,
    fun settings budget => ⟨fun hends => ?_, ?_⟩, fun hhalts => ?_⟩
  · obtain hhalts | ⟨s, hs⟩ := haltedAfter_or_goesOn hp
    · exact Or.inr hhalts
    · exact Or.inl (hs.lt_of_endsInBudget hp hends)
  · rintro (hb | ⟨n, hn⟩)
    · exact endsInBudget_of_lt hp hb settings
    · exact endsInBudget_of_haltedAfter hp hn settings budget
  · obtain ⟨s, hs⟩ := (haltedAfter_or_goesOn hp).resolve_left hhalts
    exact ⟨⟨s, hs⟩, run_maxSteps_of_goesOn hp hs⟩

theorem ends_in_budget_below_greatest :
    EndsInBudget ⟨true⟩ (.ofList [.act .increment, .loopBegin, .act .right, .act .increment,
      .loopEnd]) (State.maxSteps - 1) :=
  ((ends_in_budget_iff (.ofList [.act .increment, .loopBegin, .act .right, .act .increment,
    .loopEnd]) (by decide)).2.1 ⟨true⟩ (State.maxSteps - 1)).mpr (Or.inl (by decide))

/-! ### A program that does not end -/

/-- Sets the first cell to one and goes through an empty loop for ever. -/
def spinning : Program := .ofList [.act .increment, .loopBegin, .loopEnd]

lemma exists_stateAfter_spinning (n : Nat) (hn : n + 2 ≤ State.maxSteps.toNat) :
    ∃ s, stateAfter spinning (n + 2) = .ok s ∧ s.memory = ⟨⟨#[1]⟩, 0, #[], #[]⟩ ∧
      s.counter = 2 := by
  induction n with
  | zero => exact ⟨⟨⟨⟨#[1]⟩, 0, #[], #[]⟩, 2, 2⟩, rfl, rfl, rfl⟩
  | succ n ih =>
    obtain ⟨⟨memory, counter, steps⟩, hs, rfl, rfl⟩ := ih (by omega)
    have hcount : steps.toNat = n + 2 := toNat_steps_of_stateAfter hs
    have hroom : steps < State.maxSteps := by
      rw [UInt64.lt_iff_toNat_lt, hcount]
      omega
    refine ⟨⟨⟨⟨#[1]⟩, 0, #[], #[]⟩, 2, steps + 1⟩, stateAfter_succ hs ?_, rfl, rfl⟩
    have heffect : effect spinning ⟨⟨#[1]⟩, 0, #[], #[]⟩ 2 = .ok (⟨⟨#[1]⟩, 0, #[], #[]⟩, 1) := by
      decide
    rw [State.step_eq, heffect]
    exact if_pos hroom

/-- Spinning under the greatest budget comes to no end: after 2^64 - 1 instructions it has not
halted, its budget is not spent, and one more step would take its counter back to zero. -/
theorem spinning_overruns_greatest_budget :
    spinning.bracketsMatch = true ∧
    (∃ s, stateAfter spinning State.maxSteps.toNat = .ok s ∧ ¬s.Halted spinning ∧
      ¬State.maxSteps < s.steps ∧ s.steps + 1 = 0 ∧ s.step spinning = .error .stepCounterFull) ∧
    (run ⟨false⟩ spinning State.maxSteps).result = .error (.broken .stepCounterFull) := by
  have hp : spinning.bracketsMatch = true := by decide
  obtain ⟨s, hs, -, hcounter⟩ := exists_stateAfter_spinning (State.maxSteps.toNat - 2) (by decide)
  have hreached : stateAfter spinning State.maxSteps.toNat = .ok s := hs
  have hsteps : s.steps = State.maxSteps :=
    UInt64.toNat_inj.mp (toNat_steps_of_stateAfter hreached)
  have hhalted : ¬s.Halted spinning := by
    rw [not_halted_iff, hcounter]
    decide
  have hfull := goesOnWhenFull_of_not_halted hp hreached hhalted
  refine ⟨hp, ⟨s, hreached, hhalted, ?_, ?_, hfull.step_eq⟩, run_maxSteps_of_goesOn hp hfull _⟩
  · rw [hsteps]
    exact UInt64.lt_irrefl _
  · rw [hsteps]
    decide

end TapeMachine
