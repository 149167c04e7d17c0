import Mathlib.Data.List.Range
import TapeMachine.Proofs.Budget
import TapeMachine.Proofs.Validation

/-!
# The account of a run

What the log says of a run, in words and named values, is what happened in it. The lengths that are
noted as the tape grows are those it has had since its first cell, each of them once and in order
(`growths_of_stateAfter`), and each growth is the work of an instruction that moves the pointer to
the right (`size_le_of_stateAfter`). The main statement, `log_faithful`, gives the whole log of a
run from its result and the length of its tape.
-/

namespace TapeMachine

variable {p : Program} {settings : Settings} {m m' : Memory} {c c' n : Nat} {s s' : State}

/-- The words of a record and its named values. -/
def Event.told (event : Event) : String × List Field := (event.message, event.fields)

/-- The introduction of a run and its records, in order. -/
def Report.account (r : Report) : List (String × List Field) :=
  (Span.name, r.span.fields) :: r.events.map Event.told

/-- What has to be told of an outcome at the end, when the tape has `tapeLength` cells. -/
def Outcome.closing (settings : Settings) (tapeLength : Nat) : Outcome → String × List Field
  | completed output steps =>
    ("program completed", [("steps", .number steps.toNat), ("output_len", .number output.size),
      ("tape_len", .number tapeLength)])
  | timedOut _ steps =>
    ("instruction budget exhausted", [("steps", .number steps.toNat),
      ("partial", .flag settings.keepOutput)])

/-- The record with `kept` for what it says of kept output, if it says anything of it. -/
def Event.withOutputKept (kept : Bool) : Event → Event
  | exhausted steps _ => exhausted steps kept
  | event => event

/-! ### Growth of the tape -/

/-- A landing leaves the tape as long as it is, or notes that it is one cell longer. -/
lemma Memory.land_cases (m : Memory) :
    (m.land.tape.size = m.tape.size ∧ m.land.growths = m.growths) ∨
      ((m.tape.size : Int) ≤ m.pointer ∧ m.land.tape.size = m.tape.size + 1 ∧
        m.land.growths = m.growths.push (m.tape.size + 1)) := by
  rw [land_eq]
  rcases lt_or_ge m.pointer (m.tape.size : Int) with hlt | hpast
  · obtain ⟨_, hland⟩ := m.tape.land_of_lt hlt
    rw [hland]
    exact Or.inl ⟨rfl, rfl⟩
  · rw [m.tape.land_of_le hpast]
    refine Or.inr ⟨hpast, m.tape.size_grow, ?_⟩
    simp

lemma Action.shift_nonpos {action : Action} (h : action ≠ .right) : action.shift ≤ 0 := by
  cases action with
  | right => exact absurd rfl h
  | left => decide
  | increment => decide
  | decrement => decide
  | print => decide

lemma Move.growths_eq (h : Move p m c m' c') : m'.growths = m.growths := by
  obtain rfl | ⟨action, value, -, -, hact⟩ := h.memory_cases
  · rfl
  · obtain ⟨tape, -, rfl⟩ := Memory.exists_of_act hact
    rfl

lemma Move.right_of_past_end (h : Move p m c m' c') (hm : m.WellPlaced)
    (hpast : (m'.tape.size : Int) ≤ m'.pointer) : p.instrs[c]? = some (.act .right) := by
  have hlt := hm.lt_size
  obtain rfl | ⟨action, value, hi, -, hact⟩ := h.memory_cases
  · omega
  · obtain ⟨tape, hsize, rfl⟩ := Memory.exists_of_act hact
    dsimp only at hpast
    by_cases hright : action = .right
    · rw [hi, hright]
    · have hle := Action.shift_nonpos hright
      omega

/-- A step leaves the tape as long as it is, or it is a move to the right and notes the growth. -/
theorem State.growth_of_step (hp : p.bracketsMatch = true) (hm : s.memory.WellPlaced)
    (h : s.step p = .ok s') :
    (s'.memory.tape.size = s.memory.tape.size ∧ s'.memory.growths = s.memory.growths) ∨
      (p.instrs[s.counter]? = some (.act .right) ∧
        s'.memory.tape.size = s.memory.tape.size + 1 ∧
          s'.memory.growths = s.memory.growths.push (s.memory.tape.size + 1)) := by
  obtain ⟨memory, counter, hmove, rfl⟩ := State.exists_move_of_step hp h
  have hsize := (hmove.nearTape hm).1
  have hgrowths := hmove.growths_eq
  obtain ⟨hsame, hnone⟩ | ⟨hpast, hmore, hnoted⟩ := memory.land_cases
  · exact Or.inl ⟨hsame.trans hsize, hnone.trans hgrowths⟩
  · refine Or.inr ⟨hmove.right_of_past_end hm hpast, ?_, ?_⟩
    · rw [← hsize]
      exact hmore
    · rw [← hsize, ← hgrowths]
      exact hnoted

/-- The lengths noted are all the lengths from two on, up to that of the tape. -/
theorem growths_of_stateAfter (hp : p.bracketsMatch = true) (h : stateAfter p n = .ok s) :
    s.memory.growths.toList = List.range' 2 (s.memory.tape.size - 1) := by
  induction n generalizing s with
  | zero =>
    cases h
    rfl
  | succ n ih =>
    obtain ⟨r, hr, hstep⟩ := stateAfter_succ_eq_ok_iff.mp h
    have hplaced := (placed_of_stateAfter hp hr).memory
    obtain ⟨hsize, hgrowths⟩ | ⟨-, hsize, hgrowths⟩ := State.growth_of_step hp hplaced hstep
    · rw [hgrowths, hsize]
      exact ih hr
    · have hpos := hplaced.size_pos
      have hlast : r.memory.tape.size + 1 - 1 = r.memory.tape.size - 1 + 1 := by omega
      have hlength : r.memory.tape.size + 1 = 2 + (r.memory.tape.size - 1) := by omega
      rw [hgrowths, hsize, Array.toList_push, ih hr, hlast, List.range'_1_concat, ← hlength]

/-- The tape has grown at most once for every move to the right. -/
theorem size_le_of_stateAfter (hp : p.bracketsMatch = true) (h : stateAfter p n = .ok s) :
    s.memory.tape.size ≤ (executed p n).count (.act .right) + 1 := by
  induction n generalizing s with
  | zero =>
    cases h
    exact Nat.le_add_left 1 _
  | succ n ih =>
    obtain ⟨r, hr, hstep⟩ := stateAfter_succ_eq_ok_iff.mp h
    have hplaced := (placed_of_stateAfter hp hr).memory
    obtain ⟨instr, hi⟩ := getElem?_counter_of_step hstep
    have hbefore := ih hr
    rw [executed_succ hr hi, List.count_append]
    obtain ⟨hsize, -⟩ | ⟨hright, hsize, -⟩ := State.growth_of_step hp hplaced hstep
    · omega
    · rw [hi] at hright
      cases hright
      rw [List.count_singleton_self]
      omega

/-! ### The log -/

namespace Report

variable {span : Span}

lemma account_ofStop_ofState : (ofStop settings span (.ofState p s)).account =
    (Span.name, span.fields) ::
      (s.memory.growths.toList.map (fun length => ("tape grew", [("len", .number length)])) ++
        [(Outcome.ofState p settings s).closing settings s.memory.tape.size]) := by
  have hgrew : Event.told ∘ Event.tapeGrew =
      fun length => ("tape grew", [("len", FieldValue.number length)]) := rfl
  unfold account events
  rw [growths_ofStop_ofState, List.map_append, List.map_map, hgrew]
  by_cases hs : s.Halted p
  · rw [Outcome.ofState_of_halted hs, Stop.ofState, if_pos hs]
    rfl
  · rw [Outcome.ofState_of_not_halted hs, Stop.ofState, if_neg hs]
    rfl

lemma events_ofStop (settings settings' : Settings) (span : Span) (stop : Stop) :
    (ofStop settings' span stop).events =
      (ofStop settings span stop).events.map (.withOutputKept settings'.keepOutput) := by
  have hgrew (b : Bool) : Event.withOutputKept b ∘ Event.tapeGrew = .tapeGrew := rfl
  cases stop with
  | halted s => simp [events, ofStop, Event.withOutputKept, hgrew]
  | exhausted s => simp [events, ofStop, Event.withOutputKept, hgrew]
  | broken growths fault => simp [events, ofStop, hgrew]

end Report

lemma events_run (settings settings' : Settings) (p : Program) (budget : UInt64) :
    (run settings' p budget).events =
      (run settings p budget).events.map (.withOutputKept settings'.keepOutput) := by
  by_cases hp : p.bracketsMatch = true
  · rw [run_eq_ofStop hp, run_eq_ofStop hp]
    exact Report.events_ofStop settings settings' _ _
  · obtain ⟨e, he, -⟩ := Program.exists_imbalance hp
    rw [Program.run_of_imbalance he, Program.run_of_imbalance he]
    rfl

/-- The log of a run under a budget that is not the greatest. It introduces the run; of a program
whose brackets do not match it tells the error that the run has as its result, and else each growth
of the tape, from one cell to its final length, and how the run ended. The settings make a
difference only in the record that tells of them. -/
theorem log_faithful (p : Program) (budget : UInt64) (hb : budget < State.maxSteps)
    (settings : Settings) :
    (p.bracketsMatch = false → ∃ error : Error,
      (run settings p budget).result = .error (.refused error) ∧
        (run settings p budget).account =
          [("run", [("instrs", .number p.size), ("budget", .number budget.toNat)]),
            ("refusing to run", [("error", .text error.message)])]) ∧
    (p.bracketsMatch = true → ∃ (outcome : Outcome) (s : State),
      (run settings p budget).result = .ok outcome ∧
      stateAfter p outcome.steps.toNat = .ok s ∧
      (run settings p budget).account =
        ("run", [("instrs", .number p.size), ("budget", .number budget.toNat)]) ::
          ((List.range' 2 (s.memory.tape.size - 1)).map
              (fun length => ("tape grew", [("len", .number length)])) ++
            [outcome.closing settings s.memory.tape.size]) ∧
      s.memory.tape.size = 1 + ((run settings p budget).events.filter Event.isGrowth).length ∧
      s.memory.tape.size - 1 ≤ (executed p outcome.steps.toNat).count (.act .right)) ∧
    ∀ settings', (run settings' p budget).events =
      (run settings p budget).events.map (.withOutputKept settings'.keepOutput) := by
  refine ⟨fun hp => ?_, fun hp => ?_, fun settings' => events_run settings settings' p budget⟩
  · obtain ⟨e, he, -⟩ := Program.exists_imbalance (p := p) (by simp [hp])
    rw [Program.run_of_imbalance he]
    exact ⟨.malformed e, rfl, rfl⟩
  · obtain ⟨n, s, hstop, hrun⟩ := exists_stopsAfter hp hb
    have hsteps : (Outcome.ofState p settings s).steps.toNat = n := by
      rw [Outcome.steps_ofState]
      exact toNat_steps_of_stateAfter hstop.reached
    have hgrowths := growths_of_stateAfter hp hstop.reached
    have hsize := (placed_of_stateAfter hp hstop.reached).memory.size_pos
    refine ⟨.ofState p settings s, s, ?_, ?_, ?_, ?_, ?_⟩
    · rw [hrun, Report.result_ofStop_ofState]
    · rw [hsteps]
      exact hstop.reached
    · rw [hrun, Report.account_ofStop_ofState, hgrowths]
      rfl
    · rw [hrun, Report.growthEvents_ofStop_ofState, List.length_map, hgrowths, List.length_range']
      omega
    · have hle := size_le_of_stateAfter hp hstop.reached
      rw [hsteps]
      omega

/-- A program that comes to its end after the tape has grown twice. -/
theorem log_faithful_grown :
    (run ⟨false⟩ (.ofList [.act .right, .act .right, .act .print]) 5).account =
      [("run", [("instrs", .number 3), ("budget", .number 5)]),
        ("tape grew", [("len", .number 2)]), ("tape grew", [("len", .number 3)]),
        ("program completed", [("steps", .number 3), ("output_len", .number 1),
          ("tape_len", .number 3)])] := by
  obtain ⟨outcome, s, hresult, hreached, haccount, -⟩ :=
    (log_faithful (.ofList [.act .right, .act .right, .act .print]) 5 (by decide) ⟨false⟩).2.1
      (by decide)
  have hvalue : (run ⟨false⟩ (.ofList [.act .right, .act .right, .act .print]) 5).result =
      .ok (.completed #[0] 3) := by decide +kernel
  rw [hvalue] at hresult
  cases hresult
  cases hreached
  exact haccount

end TapeMachine
