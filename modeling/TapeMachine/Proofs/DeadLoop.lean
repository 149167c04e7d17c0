import TapeMachine.Proofs.Composition
import TapeMachine.Proofs.Counter
import TapeMachine.Proofs.Flattening

/-!
# Loops met on a zero cell

A loop that control comes to on a zero cell is passed over in one step, whatever it holds. So a
program with such a loop put between its parts `r` and `q` does what the program without it does,
one step later and with the places of `q` moved on by the length of the loop (`AtSamePlace`). There
are two places where the current cell is sure to be zero: before the first instruction, because the
tape is fresh, and behind another loop, because a loop is left on a zero cell only
(`Move.zero_behind_loop`). This gives the main statement, `dead_loop_costs_one_step`.
-/

namespace TapeMachine

variable {p q r r' a c : Program} {m m' : Memory} {i j k n start finish : Nat} {s s' t : State}
  {settings : Settings} {budget : UInt64} {output : Array UInt8}

def Outcome.oneMoreStep : Outcome → Outcome
  | completed output steps => completed output (steps + 1)
  | timedOut output steps => timedOut output (steps + 1)

/-- A run comes to its end with this output after so many steps. -/
def CompletesIn (settings : Settings) (p : Program) (budget : UInt64) (output : Array UInt8)
    (n : Nat) : Prop :=
  ∃ steps : UInt64, steps.toNat = n ∧
    (run settings p budget).result = .ok (.completed output steps)

/-- The machine is in `s` behind `r` where it is in `t` behind `r'`, but one step earlier. -/
structure AtSamePlace (r r' : Program) (s t : State) : Prop where
  memory : t.memory = s.memory
  counter : ∃ place, s.counter = place + r.size ∧ t.counter = place + r'.size
  steps : t.steps = s.steps + 1

/-! ### Moves behind other code -/

lemma Paired.prepend {is : List Instr} (h : Paired is start finish) (js : List Instr) :
    Paired (js ++ is) (start + js.length) (finish + js.length) := by
  obtain ⟨hbegin, hend, hlt, habove, hheight⟩ := paired_iff_height.mp h
  have hshift : ∀ k, height (js ++ is) (k + js.length) = depth js + height is k := by
    intro k
    rw [Nat.add_comm, height_append_right]
  refine paired_iff_height.mpr ⟨?_, ?_, by omega, fun k hk hkf => ?_, ?_⟩
  · rw [List.getElem?_append_right (Nat.le_add_left _ _), Nat.add_sub_cancel]
    exact hbegin
  · rw [List.getElem?_append_right (Nat.le_add_left _ _), Nat.add_sub_cancel]
    exact hend
  · obtain ⟨k, rfl⟩ := Nat.exists_eq_add_of_le' (show js.length ≤ k by omega)
    have h' := habove k (by omega) (by omega)
    rw [hshift, hshift]
    omega
  · rw [Nat.add_right_comm, hshift, hshift, hheight]

lemma Program.getElem?_append_right (r q : Program) (i : Nat) :
    (r.append q).instrs[i + r.size]? = q.instrs[i]? := by
  rw [← getElem?_toList, toList_append, ← length_toList,
    List.getElem?_append_right (Nat.le_add_left _ _), Nat.add_sub_cancel, getElem?_toList]

theorem Move.prepend (h : Move q m i m' j) (r : Program) :
    Move (r.append q) m (i + r.size) m' (j + r.size) := by
  have hpaired : ∀ {start finish}, Paired q.toList start finish →
      Paired (r.append q).toList (start + r.size) (finish + r.size) := by
    intro start finish hpair
    rw [Program.toList_append, ← r.length_toList]
    exact hpair.prepend _
  cases h with
  | act hi hv hm => exact .act ((r.getElem?_append_right q i).trans hi) hv hm
  | pass hv hpair => exact .pass hv (hpaired hpair)
  | enter hi hv hne => exact .enter ((r.getElem?_append_right q i).trans hi) hv hne
  | leave hi hv => exact .leave ((r.getElem?_append_right q i).trans hi) hv
  | «repeat» hv hne hpair => exact .repeat hv hne (hpaired hpair)

lemma Move.step_eq (hp : p.bracketsMatch = true) (h : Move p s.memory s.counter m' j)
    (hroom : s.steps < State.maxSteps) : s.step p = .ok ⟨m'.land, j + 1, s.steps + 1⟩ := by
  rw [State.step_eq, h.effect_eq hp]
  exact if_pos hroom

/-! ### A zero cell in front of a loop and behind it -/

lemma Program.paired_loop (ha : a.bracketsMatch = true) :
    Paired a.loop.toList 0 (a.size + 1) := by
  have hpair := paired_append [] [] (bracketsMatch_iff.mp ha)
  rw [toList_loop, Nat.add_comm, ← length_toList]
  exact hpair

/-- Control goes on behind the end of a loop on a zero cell only. -/
theorem Move.zero_behind_loop (h : Move p m i m' j) (hloop : Paired p.toList start j) :
    m' = m ∧ m.current = .ok 0 := by
  have hend := hloop.getElem?_finish
  cases h with
  | act hi hv hm =>
    rw [hend] at hi
    cases hi
  | pass hv hpair => exact ⟨rfl, hv⟩
  | enter hi hv hne =>
    rw [hend] at hi
    cases hi
  | leave hi hv => exact ⟨rfl, hv⟩
  | «repeat» hv hne hpair => exact absurd rfl (hpair.start_ne_finish hloop)

/-- A program that ends with a loop comes to its end on a zero cell. -/
theorem current_of_halted_loop (hp : p.bracketsMatch = true) (ha : a.bracketsMatch = true)
    (h : stateAfter (p.append a.loop) n = .ok s) (hs : s.Halted (p.append a.loop)) :
    s.memory.current = .ok 0 := by
  have hr := Program.bracketsMatch_append hp (Program.bracketsMatch_loop ha)
  have hsize : (p.append a.loop).size = p.size + (a.size + 2) := by simp
  cases n with
  | zero =>
    cases h
    rw [State.Halted, hsize] at hs
    exact absurd hs (Nat.not_le.mpr (by simp [State.start]))
  | succ n =>
    -- the last step comes out at the end of the loop, and lands where it is
    obtain ⟨t, ht, hstep⟩ := stateAfter_succ_eq_ok_iff.mp h
    have hplaced := (placed_of_stateAfter hr ht).memory
    obtain ⟨memory, counter, hmove, rfl⟩ := State.exists_move_of_step hr hstep
    have hlast : counter = a.size + 1 + p.size := by
      have hlt := hmove.counter_lt
      have hle : (p.append a.loop).size ≤ counter + 1 := hs
      omega
    have hloop : Paired (p.append a.loop).toList (0 + p.size) counter := by
      rw [hlast, Program.toList_append, ← p.length_toList]
      exact (Program.paired_loop ha).prepend _
    obtain ⟨rfl, hzero⟩ := hmove.zero_behind_loop hloop
    rw [hplaced.land_eq_self]
    exact hzero

/-! ### Two machines one step apart -/

namespace AtSamePlace

lemma halted_iff (h : AtSamePlace r r' s t) (q : Program) :
    t.Halted (r'.append q) ↔ s.Halted (r.append q) := by
  obtain ⟨place, hs, ht⟩ := h.counter
  rw [State.Halted, State.Halted, Program.size_append, Program.size_append, hs, ht]
  omega

theorem step (hr : r.bracketsMatch = true) (hr' : r'.bracketsMatch = true)
    (hq : q.bracketsMatch = true) (h : AtSamePlace r r' s t) (hs : s.memory.WellPlaced)
    (hstep : s.step (r.append q) = .ok s') (hroom : t.steps < State.maxSteps) :
    ∃ t', t.step (r'.append q) = .ok t' ∧ AtSamePlace r r' s' t' := by
  obtain ⟨place, hcounter, hcounter'⟩ := h.counter
  have hlt : place < q.size := by
    have hgoes := not_halted_iff.mp (not_halted_of_step hstep)
    rw [Program.size_append, hcounter] at hgoes
    omega
  obtain ⟨memory, next, hmove⟩ := exists_move hq hs hlt
  -- the move of `q` is the one behind `r` and the one behind `r'`
  have heffect := (hmove.prepend r).effect_eq (Program.bracketsMatch_append hr hq)
  rw [← hcounter] at heffect
  obtain ⟨memory', next', heffect', rfl⟩ := State.exists_effect_of_step hstep
  rw [heffect] at heffect'
  cases heffect'
  have hmove' := hmove.prepend r'
  rw [← hcounter', ← h.memory] at hmove'
  refine ⟨_, hmove'.step_eq (Program.bracketsMatch_append hr' hq) hroom, rfl,
    ⟨next + 1, ?_, ?_⟩, ?_⟩
  · exact Nat.add_right_comm next r.size 1
  · exact Nat.add_right_comm next r'.size 1
  · rw [h.steps]

/-- Once behind `r` and `r'`, the two machines stay one step apart. -/
theorem exists_stateAfter (hr : r.bracketsMatch = true) (hr' : r'.bracketsMatch = true)
    (hq : q.bracketsMatch = true) (h : AtSamePlace r r' s t)
    (hs : stateAfter (r.append q) i = .ok s) (ht : stateAfter (r'.append q) (i + 1) = .ok t)
    (hle : i ≤ n) (hn : n < State.maxSteps.toNat) (hs' : stateAfter (r.append q) n = .ok s') :
    ∃ t', stateAfter (r'.append q) (n + 1) = .ok t' ∧ AtSamePlace r r' s' t' := by
  -- induction on the steps of the first machine since it came behind `r`
  induction n, hle using Nat.le_induction generalizing s' with
  | base =>
    rw [hs] at hs'
    cases hs'
    exact ⟨t, ht, h⟩
  | succ n hle ih =>
    obtain ⟨u, hu, hstep⟩ := stateAfter_succ_eq_ok_iff.mp hs'
    obtain ⟨v, hv, hsame⟩ := ih (by omega) hu
    have hplaced := placed_of_stateAfter (Program.bracketsMatch_append hr hq) hu
    obtain ⟨t', hstep', hsame'⟩ :=
      hsame.step hr hr' hq hplaced.memory hstep (steps_lt_maxSteps hv hn)
    exact ⟨t', stateAfter_succ hv hstep', hsame'⟩

lemma ofState_eq (h : AtSamePlace r r' s t) (q : Program) (settings : Settings) :
    Outcome.ofState (r'.append q) settings t =
      (Outcome.ofState (r.append q) settings s).oneMoreStep := by
  by_cases hs : s.Halted (r.append q)
  · rw [Outcome.ofState_of_halted hs, Outcome.ofState_of_halted ((h.halted_iff q).mpr hs),
      h.memory, h.steps]
    rfl
  · rw [Outcome.ofState_of_not_halted hs,
      Outcome.ofState_of_not_halted (fun ht => hs ((h.halted_iff q).mp ht)), h.memory, h.steps]
    rfl

end AtSamePlace

/-! ### The loop put in -/

lemma halted_or_goes_on (hp : p.bracketsMatch = true) (hn : n ≤ State.maxSteps.toNat) :
    (∃ k s, k ≤ n ∧ stateAfter p k = .ok s ∧ s.Halted p) ∨
      ∃ s, stateAfter p n = .ok s ∧ ¬s.Halted p := by
  induction n with
  | zero =>
    by_cases hs : State.start.Halted p
    · exact Or.inl ⟨0, .start, Nat.le_refl 0, rfl, hs⟩
    · exact Or.inr ⟨.start, rfl, hs⟩
  | succ n ih =>
    obtain ⟨k, s, hk, hreached, hs⟩ | ⟨s, hreached, hs⟩ := ih (by omega)
    · exact Or.inl ⟨k, s, by omega, hreached, hs⟩
    · have hplaced := placed_of_stateAfter hp hreached
      obtain ⟨s', hstep⟩ := hplaced.exists_step hp hs (steps_lt_maxSteps hreached hn)
      have hnext := stateAfter_succ hreached hstep
      by_cases hs' : s'.Halted p
      · exact Or.inl ⟨n + 1, s', Nat.le_refl _, hnext, hs'⟩
      · exact Or.inr ⟨s', hnext, hs'⟩

/-- A machine that comes to the end of two parts has come to the end of the first, and before, if
there is anything in the second. -/
lemma exists_halted_front (hr : r.bracketsMatch = true) (hq : q.bracketsMatch = true)
    (h : stateAfter (r.append q) n = .ok s) (hs : s.Halted (r.append q)) :
    ∃ k t, k ≤ n ∧ stateAfter r k = .ok t ∧ t.Halted r ∧ (0 < q.size → k < n) := by
  have hn := le_maxSteps_of_stateAfter h
  obtain ⟨k, t, hk, ht, hhalted⟩ | ⟨t, ht, hhalted⟩ := halted_or_goes_on hr hn
  · refine ⟨k, t, hk, ht, hhalted, fun hsize => ?_⟩
    by_contra hlast
    have heq : k = n := by omega
    have hsame := stateAfter_append hr hq ht
    rw [heq, h] at hsame
    cases hsame
    have hle := (placed_of_stateAfter hr ht).counter_le
    exact State.not_halted_append (by omega) hs
  · have hsame := stateAfter_append hr hq ht
    rw [h] at hsame
    cases hsame
    have hlt := not_halted_iff.mp hhalted
    exact absurd hs (State.not_halted_append (by omega))

lemma exists_step_past_loop (hr : r.bracketsMatch = true) (hc : c.bracketsMatch = true)
    (hq : q.bracketsMatch = true) (hs : stateAfter r i = .ok s) (hhalted : s.Halted r)
    (hzero : s.memory.current = .ok 0) (hi : i < State.maxSteps.toNat) :
    ∃ t, stateAfter ((r.append c.loop).append q) (i + 1) = .ok t ∧
      AtSamePlace r (r.append c.loop) s t := by
  have hrc := Program.bracketsMatch_append hr (Program.bracketsMatch_loop hc)
  have hplaced := placed_of_stateAfter hr hs
  have hcounter : s.counter = 0 + r.size := by
    have hle := hplaced.counter_le
    have hge : r.size ≤ s.counter := hhalted
    omega
  have hmove : Move ((r.append c.loop).append q) s.memory s.counter s.memory
      (c.size + 1 + r.size) := by
    rw [hcounter]
    exact ((Move.pass hzero (Program.paired_loop hc)).prepend r).append q
  have hreached := stateAfter_append hrc hq
    (stateAfter_append hr (Program.bracketsMatch_loop hc) hs)
  refine ⟨_, stateAfter_succ hreached
    (hmove.step_eq (Program.bracketsMatch_append hrc hq) (steps_lt_maxSteps hs hi)),
    hplaced.memory.land_eq_self, ⟨0, hcounter, ?_⟩, rfl⟩
  simp only [Program.size_append, Program.size_loop]
  omega

lemma toNat_add_one (hb : budget < State.maxSteps - 1) :
    (budget + 1).toNat = budget.toNat + 1 ∧ budget.toNat + 1 < State.maxSteps.toNat := by
  have hlt : budget.toNat < 18446744073709551614 := UInt64.lt_iff_toNat_lt.mp hb
  have hmax : State.maxSteps.toNat = 18446744073709551615 := by decide
  rw [UInt64.toNat_add, UInt64.toNat_one, hmax]
  omega

lemma lt_maxSteps_of_lt (hb : budget < State.maxSteps - 1) :
    budget < State.maxSteps ∧ budget + 1 < State.maxSteps := by
  obtain ⟨hnext, hmax⟩ := toNat_add_one hb
  rw [UInt64.lt_iff_toNat_lt, UInt64.lt_iff_toNat_lt, hnext]
  omega

/-- With a loop put in where the current cell is zero, the run stops one step later. -/
theorem StopsAfter.insert_loop (hr : r.bracketsMatch = true) (hc : c.bracketsMatch = true)
    (hq : q.bracketsMatch = true) (hb : budget < State.maxSteps - 1)
    (h : StopsAfter (r.append q) budget n s) (ht : stateAfter r i = .ok t) (hhalted : t.Halted r)
    (hzero : t.memory.current = .ok 0) (hi : i ≤ budget.toNat + 1) :
    ∃ s', StopsAfter ((r.append c.loop).append q) (budget + 1) (n + 1) s' ∧
      AtSamePlace r (r.append c.loop) s s' := by
  obtain ⟨hnext, hmax⟩ := toNat_add_one hb
  have hrc := Program.bracketsMatch_append hr (Program.bracketsMatch_loop hc)
  have hreached := stateAfter_append hr hq ht
  have hin : i ≤ n := by
    obtain hend | hspent := h.stop
    · exact le_of_halted h.reached hend hreached
    · omega
  have hn := h.le
  obtain ⟨t', ht', hsame⟩ := exists_step_past_loop hr hc hq ht hhalted hzero (by omega)
  obtain ⟨s', hs', hsame'⟩ := hsame.exists_stateAfter hr hrc hq hreached ht' hin (by omega)
    h.reached
  refine ⟨s', ⟨hs', by omega, ?_⟩, hsame'⟩
  obtain hend | hspent := h.stop
  · exact Or.inl ((hsame'.halted_iff q).mpr hend)
  · exact Or.inr (by omega)

lemma completesIn_iff (hp : p.bracketsMatch = true) (hb : budget < State.maxSteps) :
    CompletesIn settings p budget output n ↔
      ∃ s, StopsAfter p budget n s ∧ s.Halted p ∧ s.memory.output = output := by
  constructor
  · rintro ⟨steps, rfl, hrun⟩
    obtain ⟨k, s, hstop, -⟩ := exists_stopsAfter hp hb
    rw [hstop.result_eq hp hb, Except.ok.injEq] at hrun
    have hs := Outcome.halted_of_ofState_eq hrun
    rw [Outcome.ofState_of_halted hs] at hrun
    cases hrun
    rw [toNat_steps_of_stateAfter hstop.reached]
    exact ⟨s, hstop, hs, rfl⟩
  · rintro ⟨s, hstop, hs, rfl⟩
    refine ⟨s.steps, toNat_steps_of_stateAfter hstop.reached, ?_⟩
    rw [hstop.result_eq hp hb, Outcome.ofState_of_halted hs]

/-- A loop behind a loop makes a run that comes to its end one step longer. -/
theorem completesIn_insert_loop (hp : p.bracketsMatch = true) (ha : a.bracketsMatch = true)
    (hc : c.bracketsMatch = true) (hq : q.bracketsMatch = true)
    (hb : budget < State.maxSteps - 1) (settings settings' : Settings) :
    CompletesIn settings ((p.append a.loop).append q) budget output n ↔
      CompletesIn settings' (((p.append a.loop).append c.loop).append q) (budget + 1) output
        (n + 1) := by
  obtain ⟨hnext, -⟩ := toNat_add_one hb
  obtain ⟨hb', hb''⟩ := lt_maxSteps_of_lt hb
  have hr := Program.bracketsMatch_append hp (Program.bracketsMatch_loop ha)
  have hrc := Program.bracketsMatch_append hr (Program.bracketsMatch_loop hc)
  have hrq := Program.bracketsMatch_append hr hq
  have hrcq := Program.bracketsMatch_append hrc hq
  rw [completesIn_iff hrq hb', completesIn_iff hrcq hb'']
  constructor
  · rintro ⟨s, hstop, hs, rfl⟩
    obtain ⟨i, t, hi, ht, hhalted, -⟩ := exists_halted_front hr hq hstop.reached hs
    have hle := hstop.le
    obtain ⟨s', hstop', hsame⟩ := hstop.insert_loop hr hc hq hb ht hhalted
      (current_of_halted_loop hp ha ht hhalted) (by omega)
    exact ⟨s', hstop', (hsame.halted_iff q).mpr hs, by rw [hsame.memory]⟩
  · rintro ⟨s', hstop', hs', rfl⟩
    obtain ⟨k, u, hk, hu, huhalted, -⟩ := exists_halted_front hrc hq hstop'.reached hs'
    obtain ⟨i, t, -, ht, hhalted, hlt⟩ :=
      exists_halted_front hr (Program.bracketsMatch_loop hc) hu huhalted
    have hik := hlt (by simp)
    have hle := hstop'.le
    -- without the loop the run stops somewhere, so with it one step later, and nowhere else
    obtain ⟨j, s, hstop, -⟩ := exists_stopsAfter hrq hb'
    obtain ⟨s'', hstop'', hsame⟩ := hstop.insert_loop hr hc hq hb ht hhalted
      (current_of_halted_loop hp ha ht hhalted) (by omega)
    have heq := hstop''.unique hstop'
    have hj : j + 1 = n + 1 := by
      rw [← toNat_steps_of_stateAfter hstop''.reached, heq,
        toNat_steps_of_stateAfter hstop'.reached]
    obtain rfl : j = n := by omega
    rw [heq] at hsame
    exact ⟨s, hstop, (hsame.halted_iff q).mp hs', by rw [hsame.memory]⟩

lemma Program.append_ofList_nil (p : Program) : (ofList []).append p = p := by
  apply ext
  rw [append, instrs_ofList, toList]
  simp [toList]

/-- A loop in front of a program makes every run of it one step longer. -/
theorem run_loop_append (ha : a.bracketsMatch = true) (hp : p.bracketsMatch = true)
    (hb : budget < State.maxSteps - 1) (settings : Settings) : ∃ outcome,
      (run settings p budget).result = .ok outcome ∧
      (run settings (a.loop.append p) (budget + 1)).result = .ok outcome.oneMoreStep ∧
      outcome.oneMoreStep.steps.toNat = outcome.steps.toNat + 1 := by
  obtain ⟨hb', hb''⟩ := lt_maxSteps_of_lt hb
  obtain ⟨n, s, hstop, -⟩ := exists_stopsAfter hp hb'
  -- the loop comes behind no code at all, and there the machine starts
  have hstart : State.start.Halted (.ofList []) := Nat.le_refl 0
  obtain ⟨s', hstop', hsame⟩ := StopsAfter.insert_loop (r := .ofList []) (by decide) ha hp hb
    (p.append_ofList_nil ▸ hstop) rfl hstart rfl (Nat.zero_le _)
  have houtcome := hsame.ofState_eq p settings
  rw [Program.append_ofList_nil, Program.append_ofList_nil] at houtcome
  rw [Program.append_ofList_nil] at hstop'
  refine ⟨.ofState p settings s, hstop.result_eq hp hb' settings, ?_, ?_⟩
  · rw [hstop'.result_eq (Program.bracketsMatch_append (Program.bracketsMatch_loop ha) hp) hb'',
      houtcome]
  · rw [← houtcome, Outcome.steps_ofState, Outcome.steps_ofState,
      toNat_steps_of_stateAfter hstop'.reached, toNat_steps_of_stateAfter hstop.reached]

/-- A loop that is met on a zero cell costs one step, and that is all it does. In front of a program
it makes every run of it one step longer, under a budget that is one greater. Behind another loop,
however often that is gone through, it does so for every run that comes to its end. -/
theorem dead_loop_costs_one_step (budget : UInt64) (hb : budget < State.maxSteps - 1) :
    (∀ a p : Program, a.bracketsMatch = true → p.bracketsMatch = true → ∀ settings,
      ∃ outcome, (run settings p budget).result = .ok outcome ∧
        (run settings (a.loop.append p) (budget + 1)).result = .ok outcome.oneMoreStep ∧
        outcome.oneMoreStep.steps.toNat = outcome.steps.toNat + 1) ∧
    ∀ p a c q : Program, p.bracketsMatch = true → a.bracketsMatch = true →
      c.bracketsMatch = true → q.bracketsMatch = true → ∀ settings settings' output n,
        CompletesIn settings ((p.append a.loop).append q) budget output n ↔
          CompletesIn settings' (((p.append a.loop).append c.loop).append q) (budget + 1) output
            (n + 1) :=
  ⟨fun _ _ ha hp settings => run_loop_append ha hp hb settings,
    fun _ _ _ _ hp ha hc hq settings settings' _ _ =>
      completesIn_insert_loop hp ha hc hq hb settings settings'⟩

/-- A loop that prints in front of a run that times out, and behind a loop that counts down. -/
theorem dead_loop_costs_one_step_counting :
    (run ⟨true⟩ ((Program.loop (.ofList [.act .print])).append (.ofList [.act .increment,
        .act .print, .act .right, .act .print])) 3).result = .ok (.timedOut #[1] 4) ∧
      CompletesIn ⟨false⟩ ((((Program.ofList [.act .increment, .act .increment]).append
        (Program.loop (.ofList [.act .print, .act .decrement]))).append
          (Program.loop (.ofList [.act .print]))).append (.ofList [.act .print])) 10 #[2, 1, 0]
        11 := by
  constructor
  · obtain ⟨outcome, hrun, hlater, -⟩ := (dead_loop_costs_one_step 2 (by decide)).1
      (.ofList [.act .print]) (.ofList [.act .increment, .act .print, .act .right, .act .print])
      (by decide) (by decide) ⟨true⟩
    have hvalue : (run ⟨true⟩ (.ofList [.act .increment, .act .print, .act .right, .act .print])
        2).result = .ok (.timedOut #[1] 3) := by decide +kernel
    rw [hvalue] at hrun
    cases hrun
    exact hlater
  · refine ((dead_loop_costs_one_step 9 (by decide)).2 _ _ _ _ (by decide) (by decide) (by decide)
      (by decide) ⟨false⟩ ⟨false⟩ _ _).mp ⟨10, rfl, ?_⟩
    decide +kernel

end TapeMachine
