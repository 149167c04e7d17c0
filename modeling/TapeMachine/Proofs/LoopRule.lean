import TapeMachine.Proofs.Budget

/-!
# Two rules for loop ends

A loop end that goes back takes the machine behind its loop begin. It could as well go to the loop
begin itself, which would then be executed again (`Position.replay`); that rule is easier to tell.
It costs a step each time, and nothing else: the loop begin meets the same cell, which is not zero,
and enters the loop (`Position.step_cases`). So wherever the machine is after some steps, the
machine under the other rule is after these steps and one more for every loop end that went back
(`after_replay`), and since neither can go on where the program ends, one halts where the other does
(`loop_rules_agree`). The steps are counted without an end here; as far as the machine can count
them, they are its own (`stateAfter_eq`).
-/

namespace TapeMachine

/-- The machine between two instructions, without its step counter. -/
structure Position where
  memory : Memory
  counter : Nat
  deriving DecidableEq

namespace Position

def start : Position := ⟨.fresh, 0⟩

def Halted (p : Program) (x : Position) : Prop := p.size ≤ x.counter

instance (p : Program) (x : Position) : Decidable (x.Halted p) :=
  inferInstanceAs (Decidable (_ ≤ _))

/-- Execute the instruction that is up, as the machine does. -/
def step (p : Program) (x : Position) : Except Fault Position := do
  let (memory, counter) ← effect p x.memory x.counter
  return ⟨memory.land, counter + 1⟩

/-- Execute the instruction that is up, under the rule that a loop end goes back to its loop begin,
which is the next instruction then. -/
def replay (p : Program) (x : Position) : Except Fault Position := do
  let value ← x.memory.current
  match ← p.fetch x.counter with
  | .act action => return ⟨(← x.memory.act value action).land, x.counter + 1⟩
  | .loopBegin =>
    if value = 0 then return ⟨x.memory.land, (← p.jumpTarget x.counter) + 1⟩
    else return ⟨x.memory.land, x.counter + 1⟩
  | .loopEnd =>
    if value = 0 then return ⟨x.memory.land, x.counter + 1⟩
    else return ⟨x.memory.land, ← p.jumpTarget x.counter⟩

/-- Whether a loop end is up that goes back. -/
def goesBack (p : Program) (x : Position) : Bool :=
  p.instrs[x.counter]? = some .loopEnd && x.memory.current ≠ .ok 0

/-- The machine at a position, with a number of steps on its counter. -/
def counted (n : Nat) (x : Position) : State := ⟨x.memory, x.counter, UInt64.ofNat n⟩

end Position

/-- Where a machine is that has executed `n` instructions from the start by some rule. -/
def after (rule : Position → Except Fault Position) : Nat → Except Fault Position
  | 0 => .ok .start
  | n + 1 => after rule n >>= rule

/-- How many of the first `n` steps of the machine were loop ends that went back. -/
def turnsBack (p : Program) (n : Nat) : Nat :=
  (List.range n).countP fun k =>
    match after (Position.step p) k with
    | .ok x => x.goesBack p
    | .error _ => false

/-- By some rule the machine comes to the end of the program after `n` steps. -/
def HaltsAt (p : Program) (rule : Position → Except Fault Position) (n : Nat) (x : Position) :
    Prop :=
  after rule n = .ok x ∧ x.Halted p

variable {p : Program} {rule : Position → Except Fault Position} {x y z : Position} {k n : Nat}
  {s : State} {budget : UInt64} {output : Array UInt8}

lemma after_succ_eq_ok_iff :
    after rule (n + 1) = .ok y ↔ ∃ x, after rule n = .ok x ∧ rule x = .ok y :=
  bind_eq_ok_iff

lemma after_succ (h : after rule n = .ok x) (hstep : rule x = .ok y) :
    after rule (n + 1) = .ok y :=
  after_succ_eq_ok_iff.mpr ⟨x, h, hstep⟩

lemma exists_after_of_le (h : after rule n = .ok x) (hk : k ≤ n) :
    ∃ y, after rule k = .ok y := by
  induction n generalizing x with
  | zero =>
    have hzero : k = 0 := by omega
    exact ⟨x, hzero ▸ h⟩
  | succ n ih =>
    by_cases heq : k = n + 1
    · exact ⟨x, heq ▸ h⟩
    · obtain ⟨r, hr, -⟩ := after_succ_eq_ok_iff.mp h
      exact ih hr (by omega)

/-! ### The positions of the machine -/

lemma Position.step_eq_ok_iff : x.step p = .ok y ↔ ∃ memory counter,
    effect p x.memory x.counter = .ok (memory, counter) ∧ y = ⟨memory.land, counter + 1⟩ := by
  rw [step, bind_eq_ok_iff]
  simp only [Prod.exists, pure, Except.pure, Except.ok.injEq, eq_comm]

lemma Position.counted_step (hn : n < State.maxSteps.toNat) :
    (x.counted n).step p = (x.step p).map (counted (n + 1)) := by
  have hlt : UInt64.ofNat n < State.maxSteps := by
    rw [UInt64.lt_iff_toNat_lt, UInt64.toNat_ofNat_of_lt' (hn.trans State.maxSteps.toNat_lt)]
    exact hn
  rw [State.step_eq, step, counted]
  cases effect p x.memory x.counter with
  | error fault => rfl
  | ok r =>
    obtain ⟨memory, counter⟩ := r
    simp only [bind, Except.bind, pure, Except.pure, Except.map, State.next, if_pos hlt, counted,
      UInt64.ofNat_add]
    rfl

/-- As long as the step counter can hold the number of the steps, the states of the machine are its
positions with that number. -/
theorem stateAfter_eq (hn : n ≤ State.maxSteps.toNat) :
    stateAfter p n = (after (Position.step p) n).map (Position.counted n) := by
  induction n with
  | zero => rfl
  | succ n ih =>
    rw [stateAfter, after, ih (by omega)]
    cases after (Position.step p) n with
    | error fault => rfl
    | ok x => exact Position.counted_step hn

lemma placed_of_after (hp : p.bracketsMatch = true) (h : after (Position.step p) n = .ok x) :
    Placed p (x.counted n) := by
  induction n generalizing x with
  | zero =>
    cases h
    exact placed_start p
  | succ n ih =>
    obtain ⟨w, hw, hstep⟩ := after_succ_eq_ok_iff.mp h
    obtain ⟨memory, counter, heffect, rfl⟩ := Position.step_eq_ok_iff.mp hstep
    exact Placed.of_move (move_of_effect hp heffect) (ih hw).memory _

lemma Position.exists_step (hp : p.bracketsMatch = true) (hx : Placed p (x.counted n))
    (hh : ¬x.Halted p) : ∃ y, x.step p = .ok y := by
  obtain ⟨memory, counter, hmove⟩ := exists_move hp hx.memory (Nat.not_le.mp hh)
  exact ⟨_, step_eq_ok_iff.mpr ⟨memory, counter, hmove.effect_eq hp, rfl⟩⟩

/-! ### The end of the program -/

lemma Position.replay_ne_ok (hx : x.Halted p) : x.replay p ≠ .ok y := by
  intro h
  obtain ⟨value, -, hrest⟩ := bind_eq_ok_iff.mp h
  obtain ⟨instr, hfetch, -⟩ := bind_eq_ok_iff.mp hrest
  exact Nat.not_lt.mpr hx (Program.lt_size_of_getElem? (Program.fetch_eq_ok_iff.mp hfetch))

lemma HaltsAt.not_lt (h : HaltsAt p (Position.replay p) n x)
    (hy : after (Position.replay p) k = .ok y) : ¬n < k := by
  intro hlt
  obtain ⟨z, hz⟩ := exists_after_of_le hy (k := n + 1) hlt
  obtain ⟨w, hw, hstep⟩ := after_succ_eq_ok_iff.mp hz
  rw [h.1] at hw
  cases hw
  exact Position.replay_ne_ok h.2 hstep

lemma HaltsAt.unique (h : HaltsAt p (Position.replay p) n x)
    (h' : HaltsAt p (Position.replay p) k y) : k = n ∧ y = x := by
  have heq : k = n :=
    Nat.le_antisymm (Nat.not_lt.mp (h.not_lt h'.1)) (Nat.not_lt.mp (h'.not_lt h.1))
  have hy := h'.1
  rw [heq, h.1] at hy
  cases hy
  exact ⟨heq, rfl⟩

lemma exists_haltsAt_or_after (hp : p.bracketsMatch = true) (n : Nat) :
    (∃ k x, HaltsAt p (Position.step p) k x) ∨ ∃ x, after (Position.step p) n = .ok x := by
  induction n with
  | zero => exact Or.inr ⟨.start, rfl⟩
  | succ n ih =>
    obtain hhalts | ⟨x, hx⟩ := ih
    · exact Or.inl hhalts
    · by_cases hh : x.Halted p
      · exact Or.inl ⟨n, x, hx, hh⟩
      · obtain ⟨y, hstep⟩ := Position.exists_step hp (placed_of_after hp hx) hh
        exact Or.inr ⟨y, after_succ hx hstep⟩

/-! ### One rule beside the other -/

lemma Position.goesBack_eq_false {i : Instr} (hi : p.instrs[x.counter]? = some i)
    (hne : i ≠ .loopEnd) : x.goesBack p = false := by
  simp [goesBack, hi, hne]

/-- A step is a step by the other rule too, or it goes back and is two of them. -/
theorem Position.step_cases (hp : p.bracketsMatch = true) (hx : x.memory.WellPlaced)
    (h : x.step p = .ok y) :
    (x.goesBack p = false ∧ x.replay p = .ok y) ∨
      (x.goesBack p = true ∧ ∃ z, x.replay p = .ok z ∧ z.replay p = .ok y) := by
  obtain ⟨memory, counter, heffect, rfl⟩ := step_eq_ok_iff.mp h
  have hmove := move_of_effect hp heffect
  cases hmove with
  | act hi hv hm =>
    refine Or.inl ⟨goesBack_eq_false hi (by simp), ?_⟩
    simp [replay, hv, Program.fetch_eq_ok_iff.mpr hi, hm, bind, Except.bind, pure, Except.pure]
  | pass hv hpair =>
    have hi := hpair.getElem?_start
    have hj := (Program.jumpTarget_of_loopBegin hp hi).mpr hpair
    refine Or.inl ⟨goesBack_eq_false hi (by simp), ?_⟩
    simp [replay, hv, Program.fetch_eq_ok_iff.mpr hi, hj, bind, Except.bind, pure, Except.pure]
  | enter hi hv hne =>
    refine Or.inl ⟨goesBack_eq_false hi (by simp), ?_⟩
    simp [replay, hv, Program.fetch_eq_ok_iff.mpr hi, hne, bind, Except.bind, pure, Except.pure]
  | leave hi hv =>
    refine Or.inl ⟨by simp [goesBack, hv], ?_⟩
    simp [replay, hv, Program.fetch_eq_ok_iff.mpr hi, bind, Except.bind, pure, Except.pure]
  | «repeat» hv hne hpair =>
    have hi := hpair.getElem?_finish
    have hbegin := hpair.getElem?_start
    have hj := (Program.jumpTarget_of_loopEnd hp hi).mpr hpair
    -- the memory is as it was, so the loop begin reads the value that sent the machine back
    refine Or.inr ⟨by simp [goesBack, hi, hv, hne], ⟨x.memory, counter⟩, ?_, ?_⟩
    · simp [replay, hv, Program.fetch_eq_ok_iff.mpr hi, hj, hne, hx.land_eq_self, bind,
        Except.bind, pure, Except.pure]
    · simp [replay, hv, Program.fetch_eq_ok_iff.mpr hbegin, hne, bind, Except.bind, pure,
        Except.pure]

lemma turnsBack_succ (h : after (Position.step p) n = .ok x) :
    turnsBack p (n + 1) = turnsBack p n + if x.goesBack p then 1 else 0 := by
  rw [turnsBack, List.range_succ, List.countP_append, List.countP_singleton, h, turnsBack]

/-- Where the machine is after some steps, it is by the other rule after these steps and one more
for each loop end that went back. -/
theorem after_replay (hp : p.bracketsMatch = true) (h : after (Position.step p) n = .ok x) :
    after (Position.replay p) (n + turnsBack p n) = .ok x := by
  induction n generalizing x with
  | zero => exact h
  | succ n ih =>
    obtain ⟨w, hw, hstep⟩ := after_succ_eq_ok_iff.mp h
    have hsame := ih hw
    rw [turnsBack_succ hw]
    obtain ⟨hback, hreplay⟩ | ⟨hback, z, hbegin, henter⟩ :=
      Position.step_cases hp (placed_of_after hp hw).memory hstep
    · have hcount : n + 1 + (turnsBack p n + if w.goesBack p then 1 else 0) =
          n + turnsBack p n + 1 := by
        rw [hback, if_neg (by decide)]
        omega
      rw [hcount]
      exact after_succ hsame hreplay
    · have hcount : n + 1 + (turnsBack p n + if w.goesBack p then 1 else 0) =
          n + turnsBack p n + 1 + 1 := by
        rw [hback, if_pos rfl]
        omega
      rw [hcount]
      exact after_succ (after_succ hsame hbegin) henter

lemma HaltsAt.replay (hp : p.bracketsMatch = true) (h : HaltsAt p (Position.step p) n x) :
    HaltsAt p (Position.replay p) (n + turnsBack p n) x :=
  ⟨after_replay hp h.1, h.2⟩

lemma HaltsAt.exists_step (hp : p.bracketsMatch = true) (h : HaltsAt p (Position.replay p) n x) :
    ∃ k y, HaltsAt p (Position.step p) k y := by
  obtain hhalts | ⟨y, hy⟩ := exists_haltsAt_or_after hp (n + 1)
  · exact hhalts
  · exact absurd (by omega) (h.not_lt (after_replay hp hy))

/-! ### Runs -/

lemma run_eq_completed (hp : p.bracketsMatch = true) (hb : budget < State.maxSteps)
    (h : HaltsAt p (Position.step p) n x) (hn : n ≤ budget.toNat + 1) (settings : Settings) :
    (run settings p budget).result = .ok (.completed x.memory.output (UInt64.ofNat n)) := by
  have hmax : n ≤ State.maxSteps.toNat := hn.trans (UInt64.lt_iff_toNat_lt.mp hb)
  have hreached : stateAfter p n = .ok (x.counted n) := by
    rw [stateAfter_eq hmax, h.1]
    rfl
  have hhalted : (x.counted n).Halted p := h.2
  have hstop : StopsAfter p budget n (x.counted n) := ⟨hreached, hn, Or.inl hhalted⟩
  rw [hstop.result_eq hp hb, Outcome.ofState_of_halted hhalted]
  rfl

/-- The two rules for loop ends give the same results. By one the machine halts if it does by the
other, with the same memory, that is with the same tape, pointer and output; the other rule takes
one more step for each loop end that went back. So a program that is completed by that rule within
a budget is completed by a run with that budget, and prints the same. -/
theorem loop_rules_agree (p : Program) (hp : p.bracketsMatch = true) :
    (∀ n ≤ State.maxSteps.toNat,
      stateAfter p n = (after (Position.step p) n).map (Position.counted n)) ∧
    ((∃ n x, HaltsAt p (Position.step p) n x) ↔ ∃ n x, HaltsAt p (Position.replay p) n x) ∧
    (∀ n x, HaltsAt p (Position.step p) n x →
      HaltsAt p (Position.replay p) (n + turnsBack p n) x) ∧
    (∀ n x m y, HaltsAt p (Position.step p) n x → HaltsAt p (Position.replay p) m y →
      m = n + turnsBack p n ∧ y = x) ∧
    ∀ budget < State.maxSteps, ∀ m y, HaltsAt p (Position.replay p) m y →
      m ≤ budget.toNat + 1 → ∀ settings, ∃ n, n + turnsBack p n = m ∧
        (run settings p budget).result = .ok (.completed y.memory.output (UInt64.ofNat n)) := by
  refine ⟨fun n hn => stateAfter_eq hn, ⟨?_, ?_⟩, fun n x h => h.replay hp,
    fun n x m y h h' => (h.replay hp).unique h', ?_⟩
  · rintro ⟨n, x, h⟩
    exact ⟨_, x, h.replay hp⟩
  · rintro ⟨m, y, h⟩
    exact h.exists_step hp
  · intro budget hb m y h hm settings
    obtain ⟨n, x, h'⟩ := h.exists_step hp
    obtain ⟨rfl, rfl⟩ := (h'.replay hp).unique h
    exact ⟨n, rfl, run_eq_completed hp hb h' (by omega) settings⟩

/-- A loop in a loop that is gone through twice. -/
theorem loop_rules_agree_nested :
    HaltsAt (.ofList [.act .increment, .act .right, .act .increment, .loopBegin, .loopBegin,
        .act .decrement, .loopEnd, .act .left, .loopEnd])
      (Position.replay (.ofList [.act .increment, .act .right, .act .increment, .loopBegin,
        .loopBegin, .act .decrement, .loopEnd, .act .left, .loopEnd]))
      15 ⟨⟨⟨#[0, 0]⟩, 1, #[], #[2]⟩, 9⟩ := by
  have hback : turnsBack (.ofList [.act .increment, .act .right, .act .increment, .loopBegin,
      .loopBegin, .act .decrement, .loopEnd, .act .left, .loopEnd]) 14 = 1 := by
    decide +kernel
  have hagree := (loop_rules_agree (.ofList [.act .increment, .act .right, .act .increment,
    .loopBegin, .loopBegin, .act .decrement, .loopEnd, .act .left, .loopEnd]) (by decide)).2.2.1
      14 ⟨⟨⟨#[0, 0]⟩, 1, #[], #[2]⟩, 9⟩ ⟨by decide +kernel, by decide⟩
  rwa [hback] at hagree

end TapeMachine
