import TapeMachine.Machine.Run
import TapeMachine.Proofs.Move

/-!
# Safety of the machine

In a program whose brackets match, the machine never comes to a state from which a step could fail:
the pointer is on the tape and the counter in the program or just behind it (`Placed`), this holds
at the start and is kept by every step, and it is all that an instruction needs. The step counter
apart, which is at fault when it is full, no fault can arise; in a run whose budget is below the
greatest one the counter never gets there.

The pointer that is landed is at most one cell off the tape, so the landing never does more than the
plain rule `Tape.settle`, which adds the length to a negative pointer and grows the tape for a
pointer that is just past its end.
-/

namespace TapeMachine

variable {p : Program} {s s' : State} {budget : UInt64}

/-- Bring a pointer back onto the tape if it is one cell off: past the left end it wraps around the
length, past the right end it lands on a new cell. -/
def Tape.settle (t : Tape) (pointer : Int) : Landing :=
  if pointer < 0 then ⟨t, pointer + t.size, false⟩
  else if pointer = t.size then ⟨t.grow, pointer, true⟩
  else ⟨t, pointer, false⟩

/-- The states that a program can be in between two steps, after any number of them. The step
counter runs over here, so that it puts no end to them. -/
inductive Reachable (p : Program) : State → Prop
  | start : Reachable p .start
  | step {s : State} {memory : Memory} {counter : Nat} (hs : Reachable p s)
      (h : effect p s.memory s.counter = .ok (memory, counter)) :
      Reachable p ⟨memory.land, counter + 1, s.steps + 1⟩

/-- The pointer is on the tape, and the counter is in the program or just behind it. -/
structure Placed (p : Program) (s : State) : Prop where
  memory : s.memory.WellPlaced
  counter_le : s.counter ≤ p.size

/-- A step that cannot go wrong: the memory that the instruction leaves behind, and the place behind
which control goes on. Pointers are signed numbers of 64 bits, and a tape has no more cells than
there are such numbers from zero on. -/
structure SafeStep (p : Program) (s : State) (memory : Memory) (counter : Nat) : Prop where
  effect_eq : effect p s.memory s.counter = .ok (memory, counter)
  next_le : counter + 1 ≤ p.size
  size_eq : memory.tape.size = s.memory.tape.size
  pointer_ge : -1 ≤ memory.pointer
  pointer_le : memory.pointer ≤ memory.tape.size
  pointer_bounds : s.memory.tape.size ≤ Int64.maxValue.toInt →
    Int64.minValue.toInt ≤ memory.pointer ∧ memory.pointer ≤ Int64.maxValue.toInt
  land_eq : memory.tape.land memory.pointer = memory.tape.settle memory.pointer
  step_eq : s.step p =
    if s.steps < State.maxSteps then .ok ⟨memory.land, counter + 1, s.steps + 1⟩
    else .error .stepCounterFull

/-- A state in which everything that a step asks for is there. -/
structure Safe (p : Program) (s : State) : Prop where
  size_pos : 1 ≤ s.memory.tape.size
  pointer_nonneg : 0 ≤ s.memory.pointer
  pointer_lt : s.memory.pointer < s.memory.tape.size
  counter_le : s.counter ≤ p.size
  reads : ∃ value, s.memory.tape.get (cellIndex s.memory.pointer) = .ok value
  writes : ∀ value, ∃ tape, s.memory.tape.set (cellIndex s.memory.pointer) value = .ok tape
  fetches : ¬s.Halted p → ∃ instr, p.fetch s.counter = .ok instr
  jumps : p.fetch s.counter = .ok .loopBegin ∨ p.fetch s.counter = .ok .loopEnd →
    ∃ target, p.jumpTarget s.counter = .ok target
  targets : ∀ target, p.jumpTarget s.counter = .ok target → target < p.size ∧
    (p.fetch s.counter = .ok .loopBegin ∨ p.fetch s.counter = .ok .loopEnd)
  steps : ¬s.Halted p → ∃ memory counter, SafeStep p s memory counter

lemma Tape.land_eq_settle {t : Tape} {pointer : Int} (ht : 0 < t.size) (hleft : -1 ≤ pointer)
    (hright : pointer ≤ t.size) : t.land pointer = t.settle pointer := by
  have hpos : (0 : Int) < t.size := by omega
  unfold settle
  by_cases hneg : pointer < 0
  · have hone : pointer = -1 := by omega
    rw [if_pos hneg, t.land_of_neg hneg, hone, ← Int.add_emod_right,
      Int.emod_eq_of_lt (by omega) (by omega)]
  · rw [if_neg hneg]
    by_cases hend : pointer = t.size
    · rw [if_pos hend, t.land_of_le (by omega), hend]
    · rw [if_neg hend, t.land_of_mem (by omega) (by omega)]

lemma not_halted_iff : ¬s.Halted p ↔ s.counter < p.size := by
  rw [State.Halted, Nat.not_le]

/-! ### Every step keeps the machine in place -/

lemma placed_start (p : Program) : Placed p .start :=
  ⟨Memory.wellPlaced_fresh, Nat.zero_le _⟩

lemma Placed.of_move {m m' : Memory} {c c' : Nat} (h : Move p m c m' c') (hm : m.WellPlaced)
    (n : UInt64) : Placed p ⟨m'.land, c' + 1, n⟩ :=
  ⟨Memory.wellPlaced_land (h.nearTape hm).2.size_pos, h.counter_lt⟩

theorem Placed.exists_safeStep (hp : p.bracketsMatch = true) (hs : Placed p s)
    (hh : ¬s.Halted p) : ∃ memory counter, SafeStep p s memory counter := by
  obtain ⟨memory, counter, hmove⟩ := exists_move hp hs.memory (not_halted_iff.mp hh)
  obtain ⟨hsize, hnear⟩ := hmove.nearTape hs.memory
  have heffect := hmove.effect_eq hp
  have hleft := hnear.left
  have hright := hnear.right
  refine ⟨memory, counter, ⟨heffect, hmove.counter_lt, hsize, hleft, hright, ?_,
    Tape.land_eq_settle hnear.size_pos hleft hright, ?_⟩⟩
  · intro hbound
    have hmin : Int64.minValue.toInt ≤ -1 := by decide
    omega
  · rw [State.step_eq, heffect]
    rfl

lemma Placed.exists_step (hp : p.bracketsMatch = true) (hs : Placed p s) (hh : ¬s.Halted p)
    (hfull : s.steps < State.maxSteps) : ∃ s', s.step p = .ok s' := by
  obtain ⟨memory, counter, hsafe⟩ := hs.exists_safeStep hp hh
  have hstep := hsafe.step_eq
  rw [if_pos hfull] at hstep
  exact ⟨_, hstep⟩

theorem Placed.step (hp : p.bracketsMatch = true) (hs : Placed p s) (h : s.step p = .ok s') :
    Placed p s' := by
  obtain ⟨memory, counter, hmove, rfl⟩ := State.exists_move_of_step hp h
  exact Placed.of_move hmove hs.memory _

theorem Reachable.placed (hp : p.bracketsMatch = true) (hs : Reachable p s) : Placed p s := by
  induction hs with
  | start => exact placed_start p
  | step _ heffect ih => exact Placed.of_move (move_of_effect hp heffect) ih.memory _

lemma Reachable.of_step (hs : Reachable p s) (h : s.step p = .ok s') : Reachable p s' := by
  obtain ⟨memory, counter, heffect, rfl⟩ := State.exists_effect_of_step h
  exact .step hs heffect

theorem Placed.safe (hp : p.bracketsMatch = true) (hs : Placed p s) : Safe p s where
  size_pos := hs.memory.size_pos
  pointer_nonneg := hs.memory.nonneg
  pointer_lt := hs.memory.lt_size
  counter_le := hs.counter_le
  reads := hs.memory.exists_current
  writes := hs.memory.exists_set
  fetches := by
    intro hh
    have hlt : s.counter < p.instrs.size := not_halted_iff.mp hh
    exact ⟨p.instrs[s.counter], by rw [Program.fetch, dif_pos hlt]⟩
  jumps := by
    rw [Program.fetch_eq_ok_iff, Program.fetch_eq_ok_iff]
    exact ((Program.onePartner hp).jumpTarget_iff s.counter).mpr
  targets := by
    intro target h
    rw [Program.fetch_eq_ok_iff, Program.fetch_eq_ok_iff]
    refine ⟨?_, ((Program.onePartner hp).jumpTarget_iff s.counter).mp ⟨target, h⟩⟩
    obtain hpair | hpair := (Program.jumpTarget_eq_ok_iff hp).mp h
    · exact hpair.finish_lt_size
    · exact hpair.start_lt_size
  steps := hs.exists_safeStep hp

/-! ### Runs -/

/-- The one fault that can end the steps is a full step counter, and then the budget is the greatest
one. -/
theorem Placed.drive_broken (hp : p.bracketsMatch = true) (hs : Placed p s)
    {growths : Array Nat} {fault : Fault} (h : drive p budget s = .broken growths fault) :
    fault = .stepCounterFull ∧ ¬budget < State.maxSteps := by
  fun_induction drive p budget s with
  | case1 s hh => cases h
  | case2 s hh hb => cases h
  | case3 s hh hb s' hstep ih => exact ih (hs.step hp hstep) h
  | case4 s hh hb fault' hstep =>
    cases h
    obtain ⟨memory, counter, hsafe⟩ := hs.exists_safeStep hp hh
    rw [hsafe.step_eq] at hstep
    split at hstep
    · cases hstep
    · next hfull =>
      cases hstep
      refine ⟨rfl, fun hlt => hfull ?_⟩
      rw [UInt64.lt_iff_toNat_lt] at hb hlt ⊢
      omega

lemma Program.validate_eq_ok (hp : p.bracketsMatch = true) : p.validate = .ok () := by
  rw [bracketsMatch, Option.isNone_iff_eq_none] at hp
  rw [validate, hp]

lemma run_eq_ofStop (hp : p.bracketsMatch = true) (settings : Settings) (budget : UInt64) :
    run settings p budget = .ofStop settings ⟨p.size, budget⟩ (drive p budget .start) := by
  rw [run, Program.validate_eq_ok hp]

/-- A run of a program whose brackets match has an outcome, if the step counter does not fill up. -/
theorem run_result_of_match (hp : p.bracketsMatch = true) (settings : Settings)
    (budget : UInt64) :
    (∃ outcome, (run settings p budget).result = .ok outcome) ∨
      (run settings p budget).result = .error (.broken .stepCounterFull) ∧
        ¬budget < State.maxSteps := by
  rw [run_eq_ofStop hp]
  cases h : drive p budget .start with
  | halted s => exact Or.inl ⟨_, rfl⟩
  | exhausted s => exact Or.inl ⟨_, rfl⟩
  | broken growths fault =>
    obtain ⟨rfl, hfull⟩ := (placed_start p).drive_broken hp h
    exact Or.inr ⟨rfl, hfull⟩

/-- In a program whose brackets match nothing that a step asks for is ever missing, in whatever
state the machine can be after any number of steps, and a run ends with an outcome. -/
theorem reachable_safe (p : Program) (hp : p.bracketsMatch = true) :
    (∀ s, Reachable p s → Safe p s) ∧
      (∀ s s', Reachable p s → s.step p = .ok s' → Reachable p s') ∧
      ∀ settings budget, budget < State.maxSteps →
        ∃ outcome, (run settings p budget).result = .ok outcome := by
  refine ⟨fun s hs => (hs.placed hp).safe hp, fun s s' hs h => hs.of_step h, ?_⟩
  intro settings budget hbudget
  exact (run_result_of_match hp settings budget).resolve_right fun h => h.2 hbudget

theorem reachable_safe_growing :
    Safe (.ofList [.act .right, .loopBegin, .act .left, .loopEnd])
      ⟨⟨⟨#[0, 0]⟩, 1, #[], #[2]⟩, 1, 1⟩ :=
  (reachable_safe (.ofList [.act .right, .loopBegin, .act .left, .loopEnd]) (by decide)).1 _
    (@Reachable.step _ .start ⟨⟨#[0]⟩, 1, #[], #[]⟩ 0 .start rfl)

end TapeMachine
