import TapeMachine.Machine.State
import TapeMachine.Proofs.Partners

/-!
# Moves of the machine

A step does three things: the instruction has its effect, the pointer lands on the tape, and the
counters go on. `effect` is the first of them, and `Move` says by cases what it can be in a program
whose brackets match. While the pointer is on the tape there always is an effect
(`exists_move`), and after the landing the pointer is on the tape again.
-/

namespace TapeMachine

variable {p : Program} {m m' : Memory} {c c' : Nat}

/-- What the instruction at `counter` does: the memory before the pointer is landed, and the place
behind which control goes on. -/
def effect (p : Program) (memory : Memory) (counter : Nat) : Except Fault (Memory × Nat) := do
  let value ← memory.current
  match ← p.fetch counter with
  | .act action => return (← memory.act value action, counter)
  | .loopBegin =>
    if value = 0 then return (memory, ← p.jumpTarget counter) else return (memory, counter)
  | .loopEnd =>
    if value = 0 then return (memory, counter) else return (memory, ← p.jumpTarget counter)

/-- A step is the effect of an instruction and what ends every step. -/
theorem State.step_eq (p : Program) (s : State) :
    s.step p = (effect p s.memory s.counter >>= fun r => State.next r.1 r.2 s.steps) := by
  unfold State.step effect
  cases s.memory.current with
  | error fault => rfl
  | ok value =>
    simp only [bind, Except.bind, pure, Except.pure]
    cases p.fetch s.counter with
    | error fault => rfl
    | ok instr =>
      cases instr with
      | act action =>
        dsimp only
        cases s.memory.act value action <;> rfl
      | loopBegin =>
        dsimp only
        by_cases hv : value = 0
        · rw [if_pos hv, if_pos hv]
          cases p.jumpTarget s.counter <;> rfl
        · rw [if_neg hv, if_neg hv]
      | loopEnd =>
        dsimp only
        by_cases hv : value = 0
        · rw [if_pos hv, if_pos hv]
        · rw [if_neg hv, if_neg hv]
          cases p.jumpTarget s.counter <;> rfl

/-- How an instruction of a program whose brackets match can take effect: an action is done, or a
loop is passed over, entered, left or gone through again. -/
inductive Move (p : Program) (m : Memory) (c : Nat) : Memory → Nat → Prop
  | act {action : Action} {value : UInt8} {m' : Memory}
      (hi : p.instrs[c]? = some (.act action)) (hv : m.current = .ok value)
      (hm : m.act value action = .ok m') : Move p m c m' c
  | pass {finish : Nat} (hv : m.current = .ok 0) (hp : Paired p.toList c finish) :
      Move p m c m finish
  | enter {value : UInt8} (hi : p.instrs[c]? = some .loopBegin) (hv : m.current = .ok value)
      (hne : value ≠ 0) : Move p m c m c
  | leave (hi : p.instrs[c]? = some .loopEnd) (hv : m.current = .ok 0) : Move p m c m c
  | repeat {start : Nat} {value : UInt8} (hv : m.current = .ok value) (hne : value ≠ 0)
      (hp : Paired p.toList start c) : Move p m c m start

namespace Program

lemma fetch_eq_ok_iff {i : Instr} : p.fetch c = .ok i ↔ p.instrs[c]? = some i := by
  unfold fetch
  by_cases h : c < p.instrs.size
  · simp [h]
  · simp [h]

lemma jumpTarget_of_loopBegin {j : Nat} (hp : p.bracketsMatch = true)
    (hi : p.instrs[c]? = some .loopBegin) : p.jumpTarget c = .ok j ↔ Paired p.toList c j := by
  rw [jumpTarget_eq_ok_iff hp]
  refine ⟨fun h => h.resolve_right fun hpair => ?_, Or.inl⟩
  have hend := hpair.getElem?_finish
  rw [hi] at hend
  cases hend

lemma jumpTarget_of_loopEnd {j : Nat} (hp : p.bracketsMatch = true)
    (hi : p.instrs[c]? = some .loopEnd) : p.jumpTarget c = .ok j ↔ Paired p.toList j c := by
  rw [jumpTarget_eq_ok_iff hp]
  refine ⟨fun h => h.resolve_left fun hpair => ?_, Or.inr⟩
  have hbegin := hpair.getElem?_start
  rw [hi] at hbegin
  cases hbegin

end Program

open Program

lemma bind_eq_ok_iff {ε α β : Type} {x : Except ε α} {f : α → Except ε β} {r : β} :
    (x >>= f) = .ok r ↔ ∃ a, x = .ok a ∧ f a = .ok r := by
  cases x <;> simp [bind, Except.bind]

/-- The effect of an instruction is a move. -/
theorem move_of_effect (hp : p.bracketsMatch = true) (h : effect p m c = .ok (m', c')) :
    Move p m c m' c' := by
  obtain ⟨value, hv, h⟩ := bind_eq_ok_iff.mp h
  obtain ⟨instr, hf, h⟩ := bind_eq_ok_iff.mp h
  have hi := fetch_eq_ok_iff.mp hf
  cases instr with
  | act action =>
    obtain ⟨m'', hm, h⟩ := bind_eq_ok_iff.mp h
    cases h
    exact .act hi hv hm
  | loopBegin =>
    by_cases hz : value = 0
    · rw [hz] at hv h
      obtain ⟨target, hj, h⟩ := bind_eq_ok_iff.mp h
      cases h
      exact .pass hv ((jumpTarget_of_loopBegin hp hi).mp hj)
    · simp only [hz, if_false] at h
      cases h
      exact .enter hi hv hz
  | loopEnd =>
    by_cases hz : value = 0
    · rw [hz] at hv h
      cases h
      exact .leave hi hv
    · simp only [hz, if_false] at h
      obtain ⟨target, hj, h⟩ := bind_eq_ok_iff.mp h
      cases h
      exact .repeat hv hz ((jumpTarget_of_loopEnd hp hi).mp hj)

lemma State.exists_effect_of_step {s s' : State} (h : s.step p = .ok s') :
    ∃ memory counter, effect p s.memory s.counter = .ok (memory, counter) ∧
      s' = ⟨memory.land, counter + 1, s.steps + 1⟩ := by
  rw [State.step_eq] at h
  obtain ⟨⟨memory, counter⟩, heffect, hnext⟩ := bind_eq_ok_iff.mp h
  unfold State.next at hnext
  split at hnext
  · cases hnext
    exact ⟨memory, counter, heffect, rfl⟩
  · cases hnext

/-- A step that is taken is a move, a landing and one more step counted. -/
theorem State.exists_move_of_step {s s' : State} (hp : p.bracketsMatch = true)
    (h : s.step p = .ok s') : ∃ memory counter, Move p s.memory s.counter memory counter ∧
      s' = ⟨memory.land, counter + 1, s.steps + 1⟩ := by
  obtain ⟨memory, counter, heffect, rfl⟩ := State.exists_effect_of_step h
  exact ⟨memory, counter, move_of_effect hp heffect, rfl⟩

/-- Every move is the effect of an instruction. -/
theorem Move.effect_eq (hp : p.bracketsMatch = true) (h : Move p m c m' c') :
    effect p m c = .ok (m', c') := by
  cases h with
  | act hi hv hm =>
    simp [effect, hv, fetch_eq_ok_iff.mpr hi, hm, bind, Except.bind, pure, Except.pure]
  | pass hv hpair =>
    have hi := hpair.getElem?_start
    have hj := (jumpTarget_of_loopBegin hp hi).mpr hpair
    simp [effect, hv, fetch_eq_ok_iff.mpr hi, hj, bind, Except.bind, pure, Except.pure]
  | enter hi hv hne =>
    simp [effect, hv, fetch_eq_ok_iff.mpr hi, hne, bind, Except.bind, pure, Except.pure]
  | leave hi hv => simp [effect, hv, fetch_eq_ok_iff.mpr hi, bind, Except.bind, pure, Except.pure]
  | «repeat» hv hne hpair =>
    have hi := hpair.getElem?_finish
    have hj := (jumpTarget_of_loopEnd hp hi).mpr hpair
    simp [effect, hv, fetch_eq_ok_iff.mpr hi, hj, hne, bind, Except.bind, pure, Except.pure]

/-! ### The pointer and the tape -/

/-- How far an action moves the pointer. -/
def Action.shift : Action → Int
  | right => 1
  | left => -1
  | increment | decrement | print => 0

lemma Action.neg_one_le_shift (action : Action) : -1 ≤ action.shift := by
  cases action <;> decide

lemma Action.shift_le_one (action : Action) : action.shift ≤ 1 := by
  cases action <;> decide

/-- The pointer names a cell. -/
structure Memory.WellPlaced (m : Memory) : Prop where
  nonneg : 0 ≤ m.pointer
  lt_size : m.pointer < m.tape.size

/-- The memory before a landing: the pointer is at most one cell off the tape. -/
structure Memory.NearTape (m : Memory) : Prop where
  size_pos : 0 < m.tape.size
  left : -1 ≤ m.pointer
  right : m.pointer ≤ m.tape.size

lemma Tape.land_mem {t : Tape} (ht : 0 < t.size) (pointer : Int) :
    0 ≤ (t.land pointer).pointer ∧ (t.land pointer).pointer < (t.land pointer).tape.size := by
  have hpos : (0 : Int) < t.size := by omega
  by_cases hneg : pointer < 0
  · rw [t.land_of_neg hneg]
    exact ⟨Int.emod_nonneg _ (by omega), Int.emod_lt_of_pos _ hpos⟩
  · by_cases hlt : pointer < t.size
    · rw [t.land_of_mem (Int.not_lt.mp hneg) hlt]
      exact ⟨Int.not_lt.mp hneg, hlt⟩
    · rw [t.land_of_le (Int.not_lt.mp hlt)]
      simp only [Tape.size_grow]
      omega

namespace Memory

lemma land_eq (m : Memory) : m.land =
    ⟨(m.tape.land m.pointer).tape, (m.tape.land m.pointer).pointer, m.output,
      if (m.tape.land m.pointer).grew then m.growths.push (m.tape.land m.pointer).tape.size
      else m.growths⟩ := by
  obtain ⟨tape, pointer, output, growths⟩ := m
  unfold land
  dsimp only
  obtain ⟨tape', pointer', grew⟩ := tape.land pointer
  cases grew <;> rfl

lemma write_eq (m : Memory) (value : UInt8) :
    m.write value = (m.tape.set (cellIndex m.pointer) value).map fun tape => { m with tape } := by
  obtain ⟨tape, pointer, output, growths⟩ := m
  unfold write
  dsimp only
  cases tape.set (cellIndex pointer) value <;> rfl

lemma wellPlaced_fresh : fresh.WellPlaced := ⟨by decide, by decide⟩

lemma wellPlaced_land (hm : 0 < m.tape.size) : m.land.WellPlaced := by
  obtain ⟨h₁, h₂⟩ := Tape.land_mem hm m.pointer
  rw [land_eq]
  exact ⟨h₁, h₂⟩

namespace WellPlaced

lemma size_pos (h : m.WellPlaced) : 0 < m.tape.size := by
  have h₁ := h.nonneg
  have h₂ := h.lt_size
  omega

lemma nearTape (h : m.WellPlaced) : m.NearTape :=
  ⟨h.size_pos, by have := h.nonneg; omega, Int.le_of_lt h.lt_size⟩

lemma land_eq_self (h : m.WellPlaced) : m.land = m := by
  rw [land_eq, m.tape.land_of_mem h.nonneg h.lt_size]
  rfl

lemma cellIndex_eq (h : m.WellPlaced) : (cellIndex m.pointer : Int) = m.pointer := by
  obtain ⟨n, hn⟩ := Int.eq_ofNat_of_zero_le h.nonneg
  rw [hn]
  rfl

lemma cellIndex_lt (h : m.WellPlaced) : cellIndex m.pointer < m.tape.cells.size := by
  have h₁ := h.cellIndex_eq
  have h₂ := h.lt_size
  rw [Tape.size] at h₂
  omega

lemma exists_current (h : m.WellPlaced) : ∃ value, m.current = .ok value :=
  ⟨_, m.tape.get_of_lt h.cellIndex_lt⟩

lemma exists_set (h : m.WellPlaced) (value : UInt8) :
    ∃ tape, m.tape.set (cellIndex m.pointer) value = .ok tape := by
  rw [Tape.set, dif_pos h.cellIndex_lt]
  exact ⟨_, rfl⟩

lemma exists_act (h : m.WellPlaced) (value : UInt8) (action : Action) :
    ∃ m', m.act value action = .ok m' := by
  have hwrite : ∀ value, ∃ m', m.write value = .ok m' := by
    intro value
    obtain ⟨tape, hset⟩ := h.exists_set value
    rw [write_eq, hset]
    exact ⟨_, rfl⟩
  cases action with
  | right => exact ⟨_, rfl⟩
  | left => exact ⟨_, rfl⟩
  | increment => exact hwrite _
  | decrement => exact hwrite _
  | print => exact ⟨_, rfl⟩

end WellPlaced

lemma exists_set_of_write {value : UInt8} (h : m.write value = .ok m') :
    ∃ tape, m.tape.set (cellIndex m.pointer) value = .ok tape ∧ m' = { m with tape } := by
  rw [write_eq] at h
  cases hset : m.tape.set (cellIndex m.pointer) value with
  | error fault =>
    rw [hset] at h
    cases h
  | ok tape =>
    rw [hset] at h
    cases h
    exact ⟨tape, rfl, rfl⟩

/-- An action that can be done leaves the length of the tape and what is noted, moves the pointer by
its shift, and adds to the output if it is to print. -/
lemma exists_of_act {value : UInt8} {action : Action} (h : m.act value action = .ok m') :
    ∃ tape : Tape, tape.size = m.tape.size ∧ m' = ⟨tape, m.pointer + action.shift,
      if action = .print then m.output.push value else m.output, m.growths⟩ := by
  have hwrite : ∀ value, m.write value = .ok m' →
      ∃ tape : Tape, tape.size = m.tape.size ∧ m' = { m with tape } := by
    intro value hw
    obtain ⟨tape, hset, rfl⟩ := exists_set_of_write hw
    exact ⟨tape, Tape.size_set hset, rfl⟩
  cases action with
  | right =>
    cases h
    exact ⟨m.tape, rfl, rfl⟩
  | left =>
    cases h
    exact ⟨m.tape, rfl, rfl⟩
  | increment =>
    obtain ⟨tape, hsize, rfl⟩ := hwrite _ h
    exact ⟨tape, hsize, by simp [Action.shift]⟩
  | decrement =>
    obtain ⟨tape, hsize, rfl⟩ := hwrite _ h
    exact ⟨tape, hsize, by simp [Action.shift]⟩
  | print =>
    cases h
    exact ⟨m.tape, rfl, by simp [Action.shift]⟩

lemma size_of_act {value : UInt8} {action : Action} (h : m.act value action = .ok m') :
    m'.tape.size = m.tape.size ∧ m.pointer - 1 ≤ m'.pointer ∧ m'.pointer ≤ m.pointer + 1 := by
  obtain ⟨tape, hsize, rfl⟩ := exists_of_act h
  have hleft := action.neg_one_le_shift
  have hright := action.shift_le_one
  exact ⟨hsize, by dsimp only; omega, by dsimp only; omega⟩

end Memory

namespace Move

lemma instr_cases (h : Move p m c m' c') :
    ((p.instrs[c]? = some .loopBegin ∨ p.instrs[c]? = some .loopEnd) ∧ m' = m) ∨
      ∃ action value, p.instrs[c]? = some (.act action) ∧ m.current = .ok value ∧
        m.act value action = .ok m' := by
  cases h with
  | act hi hv hact => exact Or.inr ⟨_, _, hi, hv, hact⟩
  | pass hv hpair => exact Or.inl ⟨Or.inl hpair.getElem?_start, rfl⟩
  | enter hi hv hne => exact Or.inl ⟨Or.inl hi, rfl⟩
  | leave hi hv => exact Or.inl ⟨Or.inr hi, rfl⟩
  | «repeat» hv hne hpair => exact Or.inl ⟨Or.inr hpair.getElem?_finish, rfl⟩

lemma memory_cases (h : Move p m c m' c') : m' = m ∨ ∃ action value,
    p.instrs[c]? = some (.act action) ∧ m.current = .ok value ∧ m.act value action = .ok m' :=
  h.instr_cases.imp_left And.right

lemma nearTape (h : Move p m c m' c') (hm : m.WellPlaced) :
    m'.tape.size = m.tape.size ∧ m'.NearTape := by
  obtain rfl | ⟨action, value, -, -, hact⟩ := h.memory_cases
  · exact ⟨rfl, hm.nearTape⟩
  · obtain ⟨hsize, hleft, hright⟩ := Memory.size_of_act hact
    have h₁ := hm.nonneg
    have h₂ := hm.lt_size
    exact ⟨hsize, by omega, by omega, by omega⟩

lemma lt_size (h : Move p m c m' c') : c < p.size := by
  cases h with
  | act hi hv hact => exact lt_size_of_getElem? hi
  | pass hv hpair => exact hpair.start_lt_size
  | enter hi hv hne => exact lt_size_of_getElem? hi
  | leave hi hv => exact lt_size_of_getElem? hi
  | «repeat» hv hne hpair => exact hpair.finish_lt_size

lemma counter_lt (h : Move p m c m' c') : c' < p.size := by
  cases h with
  | act hi hv hact => exact lt_size_of_getElem? hi
  | pass hv hpair => exact hpair.finish_lt_size
  | enter hi hv hne => exact lt_size_of_getElem? hi
  | leave hi hv => exact lt_size_of_getElem? hi
  | «repeat» hv hne hpair => exact hpair.start_lt_size

end Move

/-- With the pointer on the tape and an instruction at the counter there is a move. -/
theorem exists_move (hp : p.bracketsMatch = true) (hm : m.WellPlaced) (hc : c < p.size) :
    ∃ m' c', Move p m c m' c' := by
  obtain ⟨value, hv⟩ := hm.exists_current
  have hlt : c < p.instrs.size := hc
  have hi : p.instrs[c]? = some p.instrs[c] := Array.getElem?_eq_getElem hlt
  cases hinstr : p.instrs[c] with
  | act action =>
    obtain ⟨m', hact⟩ := hm.exists_act value action
    exact ⟨m', c, .act (hi.trans (congrArg some hinstr)) hv hact⟩
  | loopBegin =>
    rw [hinstr] at hi
    obtain ⟨finish, hpair⟩ := exists_paired_of_loopBegin hp hi
    by_cases hz : value = 0
    · exact ⟨m, finish, .pass (hz ▸ hv) hpair⟩
    · exact ⟨m, c, .enter hi hv hz⟩
  | loopEnd =>
    rw [hinstr] at hi
    obtain ⟨start, hpair⟩ := exists_paired_of_loopEnd hp hi
    by_cases hz : value = 0
    · exact ⟨m, c, .leave hi (hz ▸ hv)⟩
    · exact ⟨m, start, .repeat hv hz hpair⟩

end TapeMachine
