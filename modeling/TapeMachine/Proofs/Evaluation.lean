import TapeMachine.Proofs.Flattening
import TapeMachine.Proofs.Safety

/-!
# Evaluation and execution

The machine on the flattening of structured code does what the evaluation of the code does. The code
may be a part of the program, at any place: while it is evaluated, the machine goes from the place
where the code begins to the place behind it (`Evaluation.Followed`). An action and the entry into a
loop are one move each, and so is the test at the end of a pass, which goes back behind the loop
begin and not to it. The induction is that of the evaluation itself (`Code.followed`).
-/

namespace TapeMachine

variable {p : Program} {budget : UInt64} {m m' : Memory} {c c' n start : Nat}

/-! ### Driving the machine by one move -/

lemma drive_of_step {s s' : State} (hh : ¬s.Halted p) (hb : ¬budget < s.steps)
    (h : s.step p = .ok s') : drive p budget s = drive p budget s' := by
  conv_lhs => rw [drive]
  rw [if_neg hh, if_neg hb]
  split
  · next s'' hstep =>
    rw [h] at hstep
    cases hstep
    rfl
  · next fault hstep =>
    rw [h] at hstep
    cases hstep

lemma toNat_ofNat_of_le (hb : budget < State.maxSteps) (hn : n ≤ budget.toNat + 1) :
    (UInt64.ofNat n).toNat = n := by
  have hmax : budget.toNat < 18446744073709551615 := UInt64.lt_iff_toNat_lt.mp hb
  exact UInt64.toNat_ofNat_of_lt' (by simp only [UInt64.size]; omega)

lemma Move.drive_eq (hp : p.bracketsMatch = true) (hb : budget < State.maxSteps)
    (hn : ¬budget.toNat < n) (h : Move p m c m' c') :
    drive p budget ⟨m, c, .ofNat n⟩ = drive p budget ⟨m'.land, c' + 1, .ofNat (n + 1)⟩ := by
  have hsteps : (UInt64.ofNat n).toNat = n := toNat_ofNat_of_le hb (by omega)
  have hfull : UInt64.ofNat n < State.maxSteps := by
    rw [UInt64.lt_iff_toNat_lt, hsteps]
    exact Nat.lt_of_le_of_lt (Nat.not_lt.mp hn) (UInt64.lt_iff_toNat_lt.mp hb)
  apply drive_of_step
  · exact not_halted_iff.mpr h.lt_size
  · rw [UInt64.lt_iff_toNat_lt, hsteps]
    exact hn
  · rw [State.step_eq, h.effect_eq hp]
    change State.next m' c' (UInt64.ofNat n) = _
    rw [State.next, if_pos hfull, UInt64.ofNat_add]
    rfl

lemma drive_exhausted (hb : budget < State.maxSteps) (hle : n ≤ budget.toNat + 1)
    (hn : budget.toNat < n) (hc : c < p.size) :
    drive p budget ⟨m, c, .ofNat n⟩ = .exhausted ⟨m, c, .ofNat n⟩ := by
  have hspent : budget < UInt64.ofNat n := by
    rw [UInt64.lt_iff_toNat_lt, toNat_ofNat_of_le hb hle]
    exact hn
  rw [drive, if_neg (not_halted_iff.mpr hc), if_pos hspent]

/-! ### The machine follows the evaluation -/

/-- A machine that stops with `stop` followed the evaluation: it came to `finish` when the
evaluation finished, or its budget was spent at the same time. -/
def Evaluation.Followed (p : Program) (budget : UInt64) (finish : Nat) (stop : Stop) :
    Evaluation n → Prop
  | .finished memory steps _ => memory.WellPlaced ∧ steps ≤ budget.toNat + 1 ∧
      stop = drive p budget ⟨memory, finish, .ofNat steps⟩
  | .timedOut memory steps => steps ≤ budget.toNat + 1 ∧
      ∃ counter, stop = .exhausted ⟨memory, counter, .ofNat steps⟩
  | .broken _ => False

/-- The number of steps after which an evaluation ended, if no step went wrong. -/
def Evaluation.steps? : Evaluation n → Option Nat
  | .finished _ steps _ => some steps
  | .timedOut _ steps => some steps
  | .broken _ => none

@[simp] lemma Evaluation.followed_weaken {finish : Nat} {stop : Stop} {least : Nat}
    (h : least ≤ n) (e : Evaluation n) :
    (e.weaken h).Followed p budget finish stop ↔ e.Followed p budget finish stop := by
  cases e <;> rfl

namespace Code

variable {action : Action} {body rest code : Code}

@[simp] lemma finishFrom_act (start : Nat) (action : Action) (rest : Code) :
    finishFrom start (act action rest) = finishFrom (start + 1) rest := by
  simp only [finishFrom, flatten, List.length_cons]
  omega

@[simp] lemma finishFrom_loop (start : Nat) (body rest : Code) :
    finishFrom start (loop body rest) = finishFrom (finishFrom (start + 1) body + 1) rest := by
  simp only [finishFrom, flatten, List.length_cons, List.length_append]
  omega

/-- The machine follows the evaluation of the code, wherever the code is written. -/
def FollowedFrom (p : Program) (budget : UInt64) (code : Code) (m : Memory) (n : Nat) : Prop :=
  ∀ start, Written p start code → m.WellPlaced → n ≤ budget.toNat + 1 →
    (code.evaluate budget.toNat m n).Followed p budget (finishFrom start code)
      (drive p budget ⟨m, start, .ofNat n⟩)

/-- The machine inside a loop follows the passes that are left and then the rest. -/
def LoopFollowedFrom (p : Program) (budget : UInt64) (body rest : Code) (m : Memory) (n : Nat) :
    Prop :=
  ∀ start, Written p start (loop body rest) → m.WellPlaced → n ≤ budget.toNat + 1 →
    (body.evaluateLoop budget.toNat rest m n).Followed p budget (finishFrom start (loop body rest))
      (drive p budget ⟨m, start + 1, .ofNat n⟩)

lemma Written.enter {value : UInt8} (h : Written p start (loop body rest))
    (hv : m.current = .ok value) (hne : value ≠ 0) : Move p m start m start :=
  .enter h.loop_paired.getElem?_start hv hne

lemma Written.leave (h : Written p start (loop body rest)) (hv : m.current = .ok 0) :
    Move p m (finishFrom (start + 1) body) m (finishFrom (start + 1) body) :=
  .leave h.loop_paired.getElem?_finish hv

lemma Written.exists_act_move (h : Written p start (act action rest))
    (hperform : perform action m = .ok m') : ∃ before, Move p m start before start ∧
      before.land = m' := by
  obtain ⟨value, hv, hrest⟩ := bind_eq_ok_iff.mp hperform
  obtain ⟨before, hact, hland⟩ := bind_eq_ok_iff.mp hrest
  cases hland
  exact ⟨before, .act h.act_eq hv hact, rfl⟩

lemma perform_ne_error (hm : m.WellPlaced) (action : Action) (fault : Fault) :
    perform action m ≠ .error fault := by
  obtain ⟨value, hv⟩ := hm.exists_current
  obtain ⟨before, hact⟩ := hm.exists_act value action
  rw [perform, hv]
  change (m.act value action >>= fun after => pure after.land) ≠ _
  rw [hact]
  intro h
  cases h

lemma current_ne_error (hm : m.WellPlaced) (fault : Fault) : m.current ≠ .error fault := by
  obtain ⟨value, hv⟩ := hm.exists_current
  rw [hv]
  intro h
  cases h

lemma FollowedFrom.finished {hle : n ≤ c} (h : FollowedFrom p budget code m n)
    (hw : Written p start code) (hm : m.WellPlaced) (hn : n ≤ budget.toNat + 1)
    (heval : code.evaluate budget.toNat m n = .finished m' c hle) :
    m'.WellPlaced ∧ c ≤ budget.toNat + 1 ∧ drive p budget ⟨m, start, .ofNat n⟩ =
      drive p budget ⟨m', finishFrom start code, .ofNat c⟩ := by
  have hfollowed := h start hw hm hn
  rw [heval] at hfollowed
  exact hfollowed

/-- The machine follows the evaluation of any code, and of what is left of any loop. -/
theorem followed (hp : p.bracketsMatch = true) (hb : budget < State.maxSteps) :
    (∀ code m n, FollowedFrom p budget code m n) ∧
      ∀ body rest m n, LoopFollowedFrom p budget body rest m n := by
  apply evaluate.mutual_induct budget.toNat (FollowedFrom p budget) (LoopFollowedFrom p budget)
  case case1 =>
    intro m n start hw hm hn
    rw [evaluate]
    exact ⟨hm, hn, rfl⟩
  -- an action: the budget is spent, the action is done, or it cannot be
  case case2 =>
    intro m n action rest hspent start hw hm hn
    rw [evaluate, dif_pos hspent]
    exact ⟨hn, start, drive_exhausted hb hn hspent (Program.lt_size_of_getElem? hw.act_eq)⟩
  case case3 =>
    intro m n action rest hspent m' hperform ih start hw hm hn
    obtain ⟨before, hmove, rfl⟩ := hw.exists_act_move hperform
    rw [evaluate, dif_neg hspent, hperform, hmove.drive_eq hp hb hspent, finishFrom_act]
    simp only [Evaluation.followed_weaken]
    exact ih (start + 1) hw.act_rest (Memory.wellPlaced_land (hmove.nearTape hm).2.size_pos)
      (by omega)
  case case4 =>
    intro m n action rest hspent fault hperform start hw hm hn
    exact absurd hperform (perform_ne_error hm action fault)
  -- the entry into a loop: the budget is spent, the loop is passed over or entered
  case case5 =>
    intro m n body rest hspent start hw hm hn
    rw [evaluate, dif_pos hspent]
    exact ⟨hn, start, drive_exhausted hb hn hspent hw.loop_paired.start_lt_size⟩
  case case6 =>
    intro m n body rest hspent hv ih start hw hm hn
    have hmove : Move p m start m (finishFrom (start + 1) body) := .pass hv hw.loop_paired
    rw [evaluate, dif_neg hspent, hv, hmove.drive_eq hp hb hspent, hm.land_eq_self,
      finishFrom_loop]
    simp only [if_true, Evaluation.followed_weaken]
    exact ih _ hw.loop_rest hm (by omega)
  case case7 =>
    intro m n body rest hspent value hv hne ih start hw hm hn
    rw [evaluate, dif_neg hspent, hv, (hw.enter hv hne).drive_eq hp hb hspent, hm.land_eq_self]
    simp only [hne, if_false, Evaluation.followed_weaken]
    exact ih start hw hm (by omega)
  case case8 =>
    intro m n body rest hspent fault hv start hw hm hn
    exact absurd hv (current_ne_error hm fault)
  -- a pass of a loop stops short
  case case9 =>
    intro body rest m n m' steps hbody ih start hw hm hn
    have hpass := ih (start + 1) hw.loop_body hm hn
    rw [hbody] at hpass
    rw [evaluateLoop, hbody]
    exact hpass
  case case10 =>
    intro body rest m n fault hbody ih start hw hm hn
    have hpass := ih (start + 1) hw.loop_body hm hn
    rw [hbody] at hpass
    exact hpass.elim
  -- a pass is finished: the budget is spent, the loop is left or gone through again
  case case11 =>
    intro body rest m n m' later hle hbody hspent ih start hw hm hn
    obtain ⟨hm', hlater, hdrive⟩ := ih.finished hw.loop_body hm hn hbody
    rw [evaluateLoop, hbody, hdrive]
    simp only [dif_pos hspent]
    exact ⟨hlater, _, drive_exhausted hb hlater hspent hw.loop_paired.finish_lt_size⟩
  case case12 =>
    intro body rest m n m' later hle hbody hspent hv ih ihrest start hw hm hn
    obtain ⟨hm', hlater, hdrive⟩ := ih.finished hw.loop_body hm hn hbody
    rw [evaluateLoop, hbody, hdrive, (hw.leave hv).drive_eq hp hb hspent, hm'.land_eq_self,
      finishFrom_loop]
    simp only [dif_neg hspent, hv, if_true, Evaluation.followed_weaken]
    exact ihrest _ hw.loop_rest hm' (by omega)
  case case13 =>
    intro body rest m n m' later hle hbody hspent value hv hne ih ihloop start hw hm hn
    obtain ⟨hm', hlater, hdrive⟩ := ih.finished hw.loop_body hm hn hbody
    have hmove : Move p m' (finishFrom (start + 1) body) m' start := .repeat hv hne hw.loop_paired
    rw [evaluateLoop, hbody, hdrive, hmove.drive_eq hp hb hspent, hm'.land_eq_self]
    simp only [dif_neg hspent, hv, hne, if_false, Evaluation.followed_weaken]
    exact ihloop start hw hm' (by omega)
  case case14 =>
    intro body rest m n m' later hle hbody hspent fault hv ih start hw hm hn
    obtain ⟨hm', -, -⟩ := ih.finished hw.loop_body hm hn hbody
    exact absurd hv (current_ne_error hm' fault)

lemma bracketsMatch_flatten (code : Code) : (Program.ofList code.flatten).bracketsMatch = true := by
  rw [Program.bracketsMatch_iff]
  exact code.balanced_flatten

lemma finishFrom_zero (code : Code) : (Program.ofList code.flatten).size = finishFrom 0 code := by
  simp [finishFrom, Program.size]

/-- A run of the flattening has the outcome of the evaluation, and its step counter holds the
number of steps that the evaluation takes. -/
lemma run_flatten (code : Code) (settings : Settings) (hb : budget < State.maxSteps) :
    ∃ outcome, (run settings (.ofList code.flatten) budget).result = .ok outcome ∧
      code.outcome settings budget = .ok outcome ∧
      (code.evaluate budget.toNat .fresh 0).steps? = some outcome.steps.toNat := by
  have hp := code.bracketsMatch_flatten
  have hfollowed := (followed hp hb).1 code .fresh 0 0 (written_ofList code)
    Memory.wellPlaced_fresh (Nat.zero_le _)
  change (code.evaluate budget.toNat .fresh 0).Followed _ _ _ (drive _ _ .start) at hfollowed
  rw [run_eq_ofStop hp, outcome]
  cases heval : code.evaluate budget.toNat .fresh 0 with
  | finished m n _ =>
    rw [heval] at hfollowed
    obtain ⟨-, hn, hdrive⟩ := hfollowed
    have hhalted : State.Halted (.ofList code.flatten) ⟨m, finishFrom 0 code, .ofNat n⟩ :=
      Nat.le_of_eq code.finishFrom_zero
    rw [hdrive, drive, if_pos hhalted]
    exact ⟨_, rfl, rfl, congrArg some (toNat_ofNat_of_le hb hn).symm⟩
  | timedOut m n =>
    rw [heval] at hfollowed
    obtain ⟨hn, c, hdrive⟩ := hfollowed
    rw [hdrive]
    exact ⟨_, rfl, rfl, congrArg some (toNat_ofNat_of_le hb hn).symm⟩
  | broken fault =>
    rw [heval] at hfollowed
    exact hfollowed.elim

/-- The machine on the flattening of structured code has the outcome of the code, with the same
number of steps, under every budget below the greatest. A program whose brackets match is the
flattening of one and only one piece of code. -/
theorem flatten_faithful :
    (∀ (code : Code) (settings : Settings) (budget : UInt64),
      budget < State.maxSteps →
        ∃ outcome, (run settings (.ofList code.flatten) budget).result = .ok outcome ∧
          code.outcome settings budget = .ok outcome ∧
          (code.evaluate budget.toNat .fresh 0).steps? = some outcome.steps.toNat) ∧
      ∀ p : Program, p.bracketsMatch = true → ∃! code : Code, Program.ofList code.flatten = p := by
  refine ⟨fun code settings budget hb => code.run_flatten settings hb, fun p hp => ?_⟩
  obtain ⟨code, hcode⟩ := exists_flatten (Program.bracketsMatch_iff.mp hp)
  refine ⟨code, ?_, fun other hother => flatten_injective ?_⟩
  · apply Program.ext
    rw [hcode, Program.instrs_ofList, Program.toList]
  · rw [hcode, ← hother, Program.toList, Program.instrs_ofList]

theorem flatten_faithful_nested :
    (run ⟨true⟩ (.ofList (act .increment
      (loop (loop (act .decrement done) done) (act .print done))).flatten) 6).result =
        .ok (.completed #[0] 7) ∧
    ∃! code : Code,
      Program.ofList code.flatten = .ofList [.act .increment, .loopBegin, .loopEnd] := by
  refine ⟨?_, flatten_faithful.2 _ (by decide)⟩
  obtain ⟨outcome, hrun, houtcome, -⟩ := flatten_faithful.1
    (act .increment (loop (loop (act .decrement done) done) (act .print done))) ⟨true⟩ 6 (by decide)
  have hvalue : (act .increment (loop (loop (act .decrement done) done) (act .print done))).outcome
      ⟨true⟩ 6 = .ok (.completed #[0] 7) := by
    simp [Code.outcome, evaluate, evaluateLoop, perform, Memory.fresh, Tape.fresh, Memory.current,
      Tape.get, Memory.act, Memory.write, Tape.set, cellIndex, Memory.land, Tape.land, Tape.size,
      Evaluation.weaken, bind, Except.bind, pure, Except.pure]
  rw [hvalue] at houtcome
  cases houtcome
  exact hrun

end Code

end TapeMachine
