import Mathlib.Order.Interval.Set.Defs
import TapeMachine.Proofs.Safety

/-!
# Entry and exit of a loop

The places behind the begin of a loop, up to its end, are inside the loop. A move from any place but
the two brackets stays on its side of the loop: an action goes on to the next place, and the two
ends of another loop are both inside or both outside (`Move.mem_inside_iff`). The brackets make the
same test, of which the current cell decides the side on which control goes on (`Move.of_bracket`).
So control comes into a loop by its begin only and out of it by its end only, which is the main
statement, `one_entry_one_exit`.
-/

namespace TapeMachine

variable {is : List Instr} {p : Program} {m m' : Memory} {c c' start finish start' finish' : Nat}

/-- How a step from `s` to `s'` can cross the bounds of the loop from `start` to `finish`. -/
structure CrossesAtBrackets (p : Program) (start finish : Nat) (s s' : State) : Prop where
  enters : s.counter ∉ Set.Ioc start finish → s'.counter ∈ Set.Ioc start finish →
    s.counter = start ∧ s'.counter = start + 1 ∧
      ∃ value, s.memory.current = .ok value ∧ value ≠ 0
  leaves : s.counter ∈ Set.Ioc start finish → s'.counter ∉ Set.Ioc start finish →
    s.counter = finish ∧ s'.counter = finish + 1 ∧ s.memory.current = .ok 0
  passes : s.counter = start → s.memory.current = .ok 0 → s'.counter = finish + 1
  zero_behind : s.counter = start ∨ s.counter ∈ Set.Ioc start finish → s'.counter = finish + 1 →
    s.memory.current = .ok 0 ∧ s'.memory.current = .ok 0
  other_loops : ∀ start' finish', Paired p.toList start' finish' →
    (start', finish') ≠ (start, finish) → s.counter = start' ∨ s.counter = finish' →
      (s'.counter ∈ Set.Ioc start finish ↔ s.counter ∈ Set.Ioc start finish)

lemma succ_mem_Ioc_iff (hs : c ≠ start) (hf : c ≠ finish) :
    c + 1 ∈ Set.Ioc start finish ↔ c ∈ Set.Ioc start finish := by
  rw [Set.mem_Ioc, Set.mem_Ioc]
  omega

lemma Paired.start_mem_Ioc_iff (h : Paired is start finish) (h' : Paired is start' finish')
    (hne : start' ≠ start) : start' ∈ Set.Ioc start finish ↔ finish' ∈ Set.Ioc start finish := by
  have hbefore := h'.before
  have hends := h'.start_ne_finish h
  rw [Set.mem_Ioc, Set.mem_Ioc]
  constructor
  · rintro ⟨hstart, hfinish⟩
    have hinner := h.inner_finish_lt h' hstart (by omega)
    omega
  · rintro ⟨hstart, hfinish⟩
    refine ⟨?_, by omega⟩
    by_contra hout
    have houter := h'.nested_or_disjoint h (by omega)
    omega

namespace Move

/-- A move from a place that is not a bracket of the loop stays inside or outside. -/
theorem mem_inside_iff (h : Move p m c m' c') (hloop : Paired p.toList start finish)
    (hs : c ≠ start) (hf : c ≠ finish) :
    c' + 1 ∈ Set.Ioc start finish ↔ c ∈ Set.Ioc start finish := by
  cases h with
  | act hi hv hm => exact succ_mem_Ioc_iff hs hf
  | pass hv hpair =>
    have hne : c' ≠ finish := by
      rintro rfl
      exact hs (hpair.start_unique hloop)
    rw [succ_mem_Ioc_iff (hloop.start_ne_finish hpair).symm hne,
      hloop.start_mem_Ioc_iff hpair hs]
  | enter hi hv hne => exact succ_mem_Ioc_iff hs hf
  | leave hi hv => exact succ_mem_Ioc_iff hs hf
  | «repeat» hv hne hpair =>
    have hne : c' ≠ start := by
      rintro rfl
      exact hf (hpair.finish_unique hloop)
    rw [succ_mem_Ioc_iff hne (hpair.start_ne_finish hloop), hloop.start_mem_Ioc_iff hpair hne]

/-- At both brackets of a loop a zero cell takes control behind the end of the loop, and any other
value takes it behind the begin. -/
theorem of_bracket (h : Move p m c m' c') (hloop : Paired p.toList start finish)
    (hc : c = start ∨ c = finish) : m' = m ∧ (m.current = .ok 0 ∧ c' = finish ∨
      ∃ value, m.current = .ok value ∧ value ≠ 0 ∧ c' = start) := by
  have hbegin := hloop.getElem?_start
  have hend := hloop.getElem?_finish
  obtain rfl | rfl := hc
  · cases h with
    | act hi hv hm =>
      rw [hbegin] at hi
      cases hi
    | pass hv hpair => exact ⟨rfl, Or.inl ⟨hv, hpair.finish_unique hloop⟩⟩
    | enter hi hv hne => exact ⟨rfl, Or.inr ⟨_, hv, hne, rfl⟩⟩
    | leave hi hv =>
      rw [hbegin] at hi
      cases hi
    | «repeat» hv hne hpair => exact absurd rfl (hloop.start_ne_finish hpair)
  · cases h with
    | act hi hv hm =>
      rw [hend] at hi
      cases hi
    | pass hv hpair => exact absurd rfl (hpair.start_ne_finish hloop)
    | enter hi hv hne =>
      rw [hend] at hi
      cases hi
    | leave hi hv => exact ⟨rfl, Or.inl ⟨hv, rfl⟩⟩
    | «repeat» hv hne hpair => exact ⟨rfl, Or.inr ⟨_, hv, hne, hpair.start_unique hloop⟩⟩

end Move

/-! ### Steps across the bounds -/

lemma Paired.eq_of_bracket (h : Paired is start finish) (h' : Paired is start' finish')
    (hc : c = start ∨ c = finish) (hc' : c = start' ∨ c = finish') :
    (start', finish') = (start, finish) := by
  obtain rfl | rfl := hc
  · obtain rfl | rfl := hc'
    · rw [h.finish_unique h']
    · exact absurd rfl (h.start_ne_finish h')
  · obtain rfl | rfl := hc'
    · exact absurd rfl (h'.start_ne_finish h)
    · rw [h.start_unique h']

namespace CrossesAtBrackets

variable {s : State} {n : UInt64}

/-- On a zero cell both brackets take control behind the end. -/
lemma of_zero (hloop : Paired p.toList start finish) (hc : s.counter = start ∨ s.counter = finish)
    (hv : s.memory.current = .ok 0) (hm : s.memory.WellPlaced) :
    CrossesAtBrackets p start finish s ⟨s.memory.land, finish + 1, n⟩ where
  enters := by
    intro _ hin
    exact absurd hin.2 (Nat.not_succ_le_self finish)
  leaves := by
    intro hin _
    have hne : s.counter ≠ start := (Nat.ne_of_lt hin.1).symm
    exact ⟨hc.resolve_left hne, rfl, hv⟩
  passes := fun _ _ => rfl
  zero_behind := by
    intro _ _
    refine ⟨hv, ?_⟩
    rw [hm.land_eq_self]
    exact hv
  other_loops := by
    intro start' finish' hother hne hc'
    exact absurd (hloop.eq_of_bracket hother hc hc') hne

/-- On any other cell both brackets take control behind the begin. -/
lemma of_ne_zero {value : UInt8} {m : Memory} (hloop : Paired p.toList start finish)
    (hc : s.counter = start ∨ s.counter = finish) (hv : s.memory.current = .ok value)
    (hne : value ≠ 0) : CrossesAtBrackets p start finish s ⟨m, start + 1, n⟩ where
  enters := by
    intro hout _
    have hbefore := hloop.before
    have hend : s.counter ≠ finish := by
      intro heq
      rw [heq] at hout
      exact hout ⟨hbefore, Nat.le_refl finish⟩
    exact ⟨hc.resolve_right hend, rfl, value, hv, hne⟩
  leaves := by
    intro _ hout
    exact absurd ⟨Nat.lt_succ_self start, hloop.before⟩ hout
  passes := by
    intro _ hzero
    rw [hv] at hzero
    cases hzero
    exact absurd rfl hne
  zero_behind := by
    intro _ hbehind
    have hbefore := hloop.before
    have heq : start + 1 = finish + 1 := hbehind
    omega
  other_loops := by
    intro start' finish' hother hdiff hc'
    exact absurd (hloop.eq_of_bracket hother hc hc') hdiff

/-- Away from the brackets control stays on its side of the loop. -/
lemma of_stays {s' : State} (hs : s.counter ≠ start)
    (hstays : s'.counter ∈ Set.Ioc start finish ↔ s.counter ∈ Set.Ioc start finish) :
    CrossesAtBrackets p start finish s s' where
  enters := fun hout hin => absurd (hstays.mp hin) hout
  leaves := fun hin hout => absurd (hstays.mpr hin) hout
  passes := fun heq _ => absurd heq hs
  zero_behind := by
    intro hin hbehind
    have hin' := hstays.mpr (hin.resolve_left hs)
    rw [hbehind] at hin'
    exact absurd hin'.2 (Nat.not_succ_le_self finish)
  other_loops := fun _ _ _ _ _ => hstays

end CrossesAtBrackets

/-- In a program whose brackets match, a step from any state that a run can be in crosses the bounds
of a loop at its own brackets only: into the loop from its begin, on a cell that is not zero, and
out of it from its end, on a zero cell. -/
theorem one_entry_one_exit (p : Program) (hp : p.bracketsMatch = true) (start finish : Nat)
    (hloop : Paired p.toList start finish) (s s' : State) (hs : Reachable p s)
    (h : s.step p = .ok s') : CrossesAtBrackets p start finish s s' := by
  obtain ⟨memory, counter, hmove, rfl⟩ := State.exists_move_of_step hp h
  by_cases hc : s.counter = start ∨ s.counter = finish
  · obtain ⟨rfl, ⟨hv, rfl⟩ | ⟨value, hv, hne, rfl⟩⟩ := hmove.of_bracket hloop hc
    · exact .of_zero hloop hc hv (hs.placed hp).memory
    · exact .of_ne_zero hloop hc hv hne
  · obtain ⟨hstart, hfinish⟩ := not_or.mp hc
    exact .of_stays hstart (hmove.mem_inside_iff hloop hstart hfinish)

/-- The outer of two loops is entered, and the inner one passed over. -/
theorem one_entry_one_exit_nested :
    CrossesAtBrackets (.ofList [.act .increment, .loopBegin, .act .right, .loopBegin, .loopEnd,
      .loopEnd]) 1 5 ⟨⟨⟨#[1]⟩, 0, #[], #[]⟩, 1, 1⟩ ⟨⟨⟨#[1]⟩, 0, #[], #[]⟩, 2, 2⟩ := by
  have hp : (Program.ofList [.act .increment, .loopBegin, .act .right, .loopBegin, .loopEnd,
      .loopEnd]).bracketsMatch = true := by decide
  exact one_entry_one_exit _ hp 1 5 ((Program.loopEndOf_eq_ok_iff hp).mp (by decide +kernel)) _ _
    (@Reachable.step _ .start ⟨⟨#[1]⟩, 0, #[], #[]⟩ 0 .start rfl) rfl

end TapeMachine
