import Mathlib.Order.Bounds.Defs
import TapeMachine.Proofs.Account

/-!
# The ledger of a run

A ledger has one entry for every instruction that was executed, with the place of the pointer at
that moment (`Recorded`). It is enough to tell the whole memory: a cell holds what was added to it
and taken from it at its own place (`balance`), the tape has the cells that the pointer has been at
and no others, and what was printed is what the ledger gave for the pointer's cell each time. This
is kept by every action, of which only two change a balance, and by every landing, which adds a cell
exactly where the pointer is. The main statement is `every_cell_accounted_for`.
-/

namespace TapeMachine

/-- An instruction that was executed, and the place where the pointer was then. -/
structure Entry where
  instr : Instr
  place : Int
  deriving DecidableEq

/-- The machine can be in the state `s` after it has executed what is in the ledger, from the first
entry to the last. -/
inductive Recorded (p : Program) : List Entry → State → Prop
  | start : Recorded p [] .start
  | step {ledger : List Entry} {s : State} {instr : Instr} {memory : Memory} {counter : Nat}
      (h : Recorded p ledger s) (hi : p.instrs[s.counter]? = some instr)
      (heffect : effect p s.memory s.counter = .ok (memory, counter)) :
      Recorded p (ledger ++ [⟨instr, s.memory.pointer⟩]) ⟨memory.land, counter + 1, s.steps + 1⟩

/-- How often the cell at a place was incremented, less how often it was decremented. -/
def balance (ledger : List Entry) (place : Int) : Int :=
  ledger.count ⟨.act .increment, place⟩ - ledger.count ⟨.act .decrement, place⟩

/-- The places where the pointer was between two instructions, from the start to the end. -/
def boundaries (ledger : List Entry) (m : Memory) : List Int :=
  ledger.map Entry.place ++ [m.pointer]

def prints (ledger : List Entry) : Nat := (ledger.map Entry.instr).count (.act .print)

/-- The byte that the ledger gives for the cell at a place. -/
def Gives (ledger : List Entry) (place : Int) (value : UInt8) : Prop :=
  (value.toNat : Int) = balance ledger place % 256

/-- Every cell holds the byte that the ledger gives for it. -/
def CellsGiven (ledger : List Entry) (t : Tape) : Prop :=
  ∀ i : Nat, i < t.size → ∃ value, t.get i = .ok value ∧ Gives ledger i value

/-- What the memory is after all that is in the ledger. -/
structure Accounted (ledger : List Entry) (m : Memory) : Prop where
  cells : CellsGiven ledger m.tape
  visited : ∀ place, place ∈ boundaries ledger m ↔ 0 ≤ place ∧ place < m.tape.size
  printed : m.output.size = prints ledger
  bytes : ∀ before place after, ledger = before ++ ⟨.act .print, place⟩ :: after →
    ∃ value, m.output[prints before]? = some value ∧ Gives before place value

variable {p : Program} {ledger before after : List Entry} {entry : Entry} {m m' : Memory}
  {s : State} {action : Action} {value : UInt8} {place : Int} {n : Nat}

def Entry.change (entry : Entry) (place : Int) : Int :=
  if entry = ⟨.act .increment, place⟩ then 1
  else if entry = ⟨.act .decrement, place⟩ then -1
  else 0

lemma balance_concat (ledger : List Entry) (entry : Entry) (place : Int) :
    balance (ledger ++ [entry]) place = balance ledger place + entry.change place := by
  simp only [balance, List.count_append, List.count_singleton, beq_iff_eq, Entry.change]
  by_cases hinc : entry = ⟨.act .increment, place⟩
  · have hdec : entry ≠ ⟨.act .decrement, place⟩ := by
      rw [hinc]
      simp
    rw [if_pos hinc, if_pos hinc, if_neg hdec]
    omega
  · rw [if_neg hinc, if_neg hinc]
    split <;> omega

lemma change_of_ne (h : entry.place ≠ place) : entry.change place = 0 := by
  rw [Entry.change, if_neg, if_neg]
  · rintro rfl
    exact h rfl
  · rintro rfl
    exact h rfl

lemma balance_eq_zero (h : place ∉ ledger.map Entry.place) : balance ledger place = 0 := by
  have hnot : ∀ instr, ⟨instr, place⟩ ∉ ledger := fun instr hmem =>
    h (List.mem_map.mpr ⟨_, hmem, rfl⟩)
  rw [balance, List.count_eq_zero.mpr (hnot _), List.count_eq_zero.mpr (hnot _)]
  rfl

lemma prints_concat (ledger : List Entry) (instr : Instr) (place : Int) :
    prints (ledger ++ [⟨instr, place⟩]) =
      prints ledger + if instr = .act .print then 1 else 0 := by
  simp only [prints, List.map_append, List.map_cons, List.map_nil, List.count_append,
    List.count_singleton, beq_iff_eq]

lemma Memory.land_tape_cases (hm : 0 < m.tape.size) :
    (m.land.tape = m.tape ∧ 0 ≤ m.land.pointer ∧ m.land.pointer < m.tape.size) ∨
      (m.land.tape = m.tape.grow ∧ m.land.pointer = m.tape.size) := by
  obtain ⟨hnonneg, hlt⟩ := wellPlaced_land hm
  rw [land_eq] at hnonneg hlt ⊢
  rcases lt_or_ge m.pointer (m.tape.size : Int) with hbefore | hpast
  · obtain ⟨_, hland⟩ := m.tape.land_of_lt hbefore
    rw [hland] at hnonneg hlt ⊢
    exact Or.inl ⟨rfl, hnonneg, hlt⟩
  · rw [m.tape.land_of_le hpast]
    exact Or.inr ⟨rfl, rfl⟩

lemma Memory.output_land (m : Memory) : m.land.output = m.output := by
  rw [land_eq]

/-! ### The cells -/

namespace Gives

lemma concat (h : Gives ledger place value) (hchange : entry.change place = 0) :
    Gives (ledger ++ [entry]) place value := by
  rw [Gives, balance_concat, hchange, Int.add_zero]
  exact h

lemma increment (h : Gives ledger place value) :
    Gives (ledger ++ [⟨.act .increment, place⟩]) place (value + 1) := by
  have hchange : Entry.change ⟨.act .increment, place⟩ place = 1 := if_pos rfl
  rw [Gives] at h ⊢
  rw [balance_concat, hchange, UInt8.toNat_add, UInt8.toNat_one]
  omega

lemma decrement (h : Gives ledger place value) :
    Gives (ledger ++ [⟨.act .decrement, place⟩]) place (value - 1) := by
  have hchange : Entry.change ⟨.act .decrement, place⟩ place = -1 := by
    rw [Entry.change, if_neg (by simp), if_pos rfl]
  rw [Gives] at h ⊢
  rw [balance_concat, hchange, UInt8.toNat_sub, UInt8.toNat_one]
  omega

end Gives

namespace CellsGiven

lemma current (h : CellsGiven ledger m.tape) (hm : m.WellPlaced) (hv : m.current = .ok value) :
    Gives ledger m.pointer value := by
  obtain ⟨given, hget, hgives⟩ := h (cellIndex m.pointer) hm.cellIndex_lt
  rw [hm.cellIndex_eq] at hgives
  rw [Memory.current, hget] at hv
  cases hv
  exact hgives

lemma concat (h : CellsGiven ledger m.tape) (hchange : ∀ place, entry.change place = 0) :
    CellsGiven (ledger ++ [entry]) m.tape := by
  intro i hi
  obtain ⟨given, hget, hgives⟩ := h i hi
  exact ⟨given, hget, hgives.concat (hchange i)⟩

/-- A write at the pointer, of the byte that is given there from now on. -/
lemma write (h : CellsGiven ledger m.tape) (hm : m.WellPlaced) (hw : m.write value = .ok m')
    (hplace : entry.place = m.pointer) (hgives : Gives (ledger ++ [entry]) m.pointer value) :
    CellsGiven (ledger ++ [entry]) m'.tape := by
  obtain ⟨tape, hset, rfl⟩ := Memory.exists_set_of_write hw
  intro i hi
  dsimp only at hi ⊢
  -- a write changes the cell of the pointer and no other, and so does its entry the balances
  by_cases heq : i = cellIndex m.pointer
  · refine ⟨value, heq ▸ Tape.get_set_self hset, ?_⟩
    rw [heq, hm.cellIndex_eq]
    exact hgives
  · rw [Tape.size_set hset] at hi
    obtain ⟨given, hget, hgiven⟩ := h i hi
    have hne : entry.place ≠ i := by
      rw [hplace, ← hm.cellIndex_eq]
      omega
    exact ⟨given, (Tape.get_set_of_ne hset heq).trans hget, hgiven.concat (change_of_ne hne)⟩

theorem act (h : CellsGiven ledger m.tape) (hm : m.WellPlaced) (hv : m.current = .ok value)
    (hact : m.act value action = .ok m') :
    CellsGiven (ledger ++ [⟨.act action, m.pointer⟩]) m'.tape := by
  have hgives := h.current hm hv
  cases action with
  | right =>
    cases hact
    exact h.concat fun place => by simp [Entry.change]
  | left =>
    cases hact
    exact h.concat fun place => by simp [Entry.change]
  | increment => exact h.write hm hact rfl hgives.increment
  | decrement => exact h.write hm hact rfl hgives.decrement
  | print =>
    cases hact
    exact h.concat fun place => by simp [Entry.change]

/-- A cell that is new is zero, and so is the balance of a place where the pointer has not been. -/
lemma land (h : CellsGiven ledger m.tape) (hm : 0 < m.tape.size)
    (hnew : (m.tape.size : Int) ∉ ledger.map Entry.place) : CellsGiven ledger m.land.tape := by
  obtain ⟨hsame, -⟩ | ⟨hgrown, -⟩ := Memory.land_tape_cases hm
  · rw [hsame]
    exact h
  · rw [hgrown]
    intro i hi
    rw [Tape.size_grow] at hi
    by_cases hlt : i < m.tape.size
    · rw [m.tape.get_grow_of_lt hlt]
      exact h i hlt
    · have heq : i = m.tape.size := by omega
      rw [heq]
      refine ⟨0, m.tape.get_grow_size, ?_⟩
      rw [Gives, balance_eq_zero hnew]
      rfl

end CellsGiven

/-! ### The places and the bytes -/

lemma mem_boundaries_concat {instr : Instr} {x : Int} :
    x ∈ boundaries (ledger ++ [⟨instr, m.pointer⟩]) m' ↔
      x ∈ boundaries ledger m ∨ x = m'.pointer := by
  simp [boundaries, or_assoc]

/-- A ledger with one more entry, cut at a print: the cut is in the old ledger, or the new entry is
the print. -/
lemma eq_append_print_cases {instr : Instr}
    (h : ledger ++ [⟨instr, m.pointer⟩] = before ++ ⟨.act .print, place⟩ :: after) :
    (∃ after', ledger = before ++ ⟨.act .print, place⟩ :: after') ∨
      (ledger = before ∧ instr = .act .print ∧ place = m.pointer) := by
  obtain rfl | ⟨front, last, rfl⟩ := after.eq_nil_or_concat
  · obtain ⟨rfl, hlast⟩ := List.append_inj' h rfl
    cases hlast
    exact Or.inr ⟨rfl, rfl, rfl⟩
  · rw [List.concat_eq_append, ← List.cons_append, ← List.append_assoc] at h
    exact Or.inl ⟨front, (List.append_inj' h rfl).1⟩

namespace Accounted

lemma fresh : Accounted [] .fresh where
  cells := by
    intro i hi
    obtain rfl : i = 0 := Nat.lt_one_iff.mp hi
    exact ⟨0, rfl, rfl⟩
  visited := by
    intro place
    simp only [boundaries, List.map_nil, List.nil_append, List.mem_singleton, Memory.fresh,
      Tape.size_fresh]
    omega
  printed := rfl
  bytes := by simp

lemma not_mem_places (h : Accounted ledger m) : (m.tape.size : Int) ∉ ledger.map Entry.place := by
  intro hmem
  have hvisited := ((h.visited m.tape.size).mp (List.mem_append_left _ hmem)).2
  omega

lemma visited_land {instr : Instr} (h : Accounted ledger m) (hm : 0 < m.tape.size)
    (hsize : m'.tape.size = m.tape.size) (x : Int) :
    x ∈ boundaries (ledger ++ [⟨instr, m.pointer⟩]) m'.land ↔ 0 ≤ x ∧ x < m'.land.tape.size := by
  rw [mem_boundaries_concat, h.visited]
  obtain ⟨hsame, hnonneg, hlt⟩ | ⟨hgrown, hpointer⟩ := Memory.land_tape_cases (hsize ▸ hm)
  · rw [hsame]
    omega
  · rw [hgrown, Tape.size_grow, hpointer]
    omega

lemma bytes_concat {instr : Instr} {output : Array UInt8} (h : Accounted ledger m)
    (hkept : ∀ (k : Nat) (byte : UInt8), m.output[k]? = some byte → output[k]? = some byte)
    (hprint : instr = .act .print → ∃ value,
      output[m.output.size]? = some value ∧ Gives ledger m.pointer value)
    (hcut : ledger ++ [⟨instr, m.pointer⟩] = before ++ ⟨.act .print, place⟩ :: after) :
    ∃ value, output[prints before]? = some value ∧ Gives before place value := by
  obtain ⟨after', hold⟩ | ⟨rfl, hinstr, rfl⟩ := eq_append_print_cases hcut
  · obtain ⟨value, hget, hgives⟩ := h.bytes before place after' hold
    exact ⟨value, hkept _ _ hget, hgives⟩
  · rw [← h.printed]
    exact hprint hinstr

lemma of_bracket {instr : Instr} (h : Accounted ledger m) (hm : m.WellPlaced)
    (hinstr : instr = .loopBegin ∨ instr = .loopEnd) :
    Accounted (ledger ++ [⟨instr, m.pointer⟩]) m.land where
  cells := by
    rw [hm.land_eq_self]
    exact h.cells.concat fun place => by obtain rfl | rfl := hinstr <;> simp [Entry.change]
  visited := h.visited_land hm.size_pos rfl
  printed := by
    rw [Memory.output_land, prints_concat, if_neg (by obtain rfl | rfl := hinstr <;> simp)]
    exact h.printed
  bytes := by
    intro before place after hcut
    rw [Memory.output_land]
    refine h.bytes_concat (fun _ _ hget => hget) (fun heq => ?_) hcut
    obtain rfl | rfl := hinstr <;> cases heq

lemma of_act (h : Accounted ledger m) (hm : m.WellPlaced) (hv : m.current = .ok value)
    (hact : m.act value action = .ok m') :
    Accounted (ledger ++ [⟨.act action, m.pointer⟩]) m'.land := by
  have hcells := h.cells.act hm hv hact
  have hgives := h.cells.current hm hv
  obtain ⟨tape, hsize, rfl⟩ := Memory.exists_of_act hact
  -- the pointer was on the tape all along, so a cell that the landing adds has no entry yet
  have hnew : (tape.size : Int) ∉
      List.map Entry.place (ledger ++ [⟨.act action, m.pointer⟩]) := by
    have hlt := hm.lt_size
    rw [hsize, List.map_append, List.mem_append, not_or]
    exact ⟨h.not_mem_places, by simp; omega⟩
  refine ⟨hcells.land (hsize ▸ hm.size_pos) hnew, h.visited_land hm.size_pos hsize, ?_, ?_⟩
  · rw [Memory.output_land, prints_concat, ← h.printed]
    by_cases hprint : action = .print
    · simp [hprint]
    · simp [hprint]
  · intro before place after hcut
    rw [Memory.output_land]
    refine h.bytes_concat (fun k byte hget => ?_) (fun hprint => ?_) hcut
    · dsimp only
      split
      · rw [Array.getElem?_push, if_neg (Nat.ne_of_lt (Array.getElem?_eq_some_iff.mp hget).1)]
        exact hget
      · exact hget
    · cases hprint
      refine ⟨value, ?_, hgives⟩
      simp

end Accounted

/-! ### Runs -/

namespace Recorded

lemma reachable (h : Recorded p ledger s) : Reachable p s := by
  induction h with
  | start => exact .start
  | step h hi heffect ih => exact .step ih heffect

theorem accounted (hp : p.bracketsMatch = true) (h : Recorded p ledger s) :
    Accounted ledger s.memory := by
  induction h with
  | start => exact .fresh
  | step h hi heffect ih =>
    have hm := (h.reachable.placed hp).memory
    obtain ⟨hbracket, rfl⟩ | ⟨action, value, hact, hv, hdone⟩ :=
      (move_of_effect hp heffect).instr_cases
    · rw [hi, Option.some.injEq, Option.some.injEq] at hbracket
      exact ih.of_bracket hm hbracket
    · rw [hi] at hact
      cases hact
      exact ih.of_act hm hv hdone

end Recorded

lemma Reachable.exists_recorded (h : Reachable p s) : ∃ ledger, Recorded p ledger s := by
  induction h with
  | start => exact ⟨[], .start⟩
  | step h heffect ih =>
    obtain ⟨ledger, hledger⟩ := ih
    obtain ⟨value, -, hrest⟩ := bind_eq_ok_iff.mp heffect
    obtain ⟨instr, hfetch, -⟩ := bind_eq_ok_iff.mp hrest
    exact ⟨_, .step hledger (Program.fetch_eq_ok_iff.mp hfetch) heffect⟩

lemma exists_recorded_of_stateAfter (h : stateAfter p n = .ok s) :
    ∃ ledger, Recorded p ledger s ∧ ledger.map Entry.instr = executed p n := by
  induction n generalizing s with
  | zero =>
    cases h
    exact ⟨[], .start, rfl⟩
  | succ n ih =>
    obtain ⟨r, hr, hstep⟩ := stateAfter_succ_eq_ok_iff.mp h
    obtain ⟨ledger, hledger, hinstrs⟩ := ih hr
    obtain ⟨instr, hi⟩ := getElem?_counter_of_step hstep
    obtain ⟨memory, counter, heffect, rfl⟩ := State.exists_effect_of_step hstep
    refine ⟨_, .step hledger hi heffect, ?_⟩
    rw [List.map_append, hinstrs, executed_succ hr hi]
    rfl

/-- Every state that a run can be in has a ledger, of the instructions executed on the way. Whatever
the ledger, it accounts for the whole memory: each cell is the increments made there less the
decrements, modulo 256, the tape ends with the greatest place where the pointer has been and has no
cell where it has not been, and the bytes printed are those that the account gave for the pointer's
cell at each print. -/
theorem every_cell_accounted_for (p : Program) (hp : p.bracketsMatch = true) :
    (∀ s, Reachable p s → ∃ ledger, Recorded p ledger s) ∧
    (∀ n s, stateAfter p n = .ok s →
      ∃ ledger, Recorded p ledger s ∧ ledger.map Entry.instr = executed p n) ∧
    ∀ ledger s, Recorded p ledger s →
      (∀ i < s.memory.tape.size, ∃ value, s.memory.tape.get i = .ok value ∧
        (value.toNat : Int) = (ledger.count ⟨.act .increment, i⟩ -
          ledger.count ⟨.act .decrement, i⟩ : Int) % 256) ∧
      IsGreatest {place | place ∈ boundaries ledger s.memory} (s.memory.tape.size - 1) ∧
      (∀ i : Nat, i < s.memory.tape.size ↔ (i : Int) ∈ boundaries ledger s.memory) ∧
      s.memory.output.size = (ledger.map Entry.instr).count (.act .print) ∧
      ∀ before place after, ledger = before ++ ⟨.act .print, place⟩ :: after →
        ∃ value, s.memory.output[(before.map Entry.instr).count (.act .print)]? = some value ∧
          (value.toNat : Int) = (before.count ⟨.act .increment, place⟩ -
            before.count ⟨.act .decrement, place⟩ : Int) % 256 := by
  refine ⟨fun s h => h.exists_recorded, fun n s h => exists_recorded_of_stateAfter h,
    fun ledger s h => ?_⟩
  have haccount := h.accounted hp
  have hsize := (h.reachable.placed hp).memory.size_pos
  refine ⟨haccount.cells, ⟨?_, fun place hplace => ?_⟩, fun i => ?_, haccount.printed,
    haccount.bytes⟩
  · exact (haccount.visited _).mpr (by omega)
  · have hlt := ((haccount.visited place).mp hplace).2
    omega
  · rw [haccount.visited]
    omega

/-- The pointer wraps from the first cell to the second, which is incremented and printed there. -/
theorem every_cell_accounted_for_wrapped :
    ∃ ledger : List Entry, ledger.map Entry.instr =
        [.act .right, .act .left, .act .left, .act .increment, .act .print] ∧
      (#[1] : Array UInt8).size = (ledger.map Entry.instr).count (.act .print) ∧
      ∃ value, (⟨#[0, 1]⟩ : Tape).get 1 = .ok value ∧ (value.toNat : Int) =
        (ledger.count ⟨.act .increment, 1⟩ - ledger.count ⟨.act .decrement, 1⟩ : Int) % 256 := by
  have haccount := every_cell_accounted_for (.ofList [.act .right, .act .left, .act .left,
    .act .increment, .act .print]) (by decide)
  obtain ⟨ledger, hledger, hinstrs⟩ := haccount.2.1 5 ⟨⟨⟨#[0, 1]⟩, 1, #[1], #[2]⟩, 5, 5⟩ rfl
  obtain ⟨hcells, -, -, hprinted, -⟩ := haccount.2.2 ledger _ hledger
  exact ⟨ledger, hinstrs, hprinted, hcells 1 (by decide)⟩

end TapeMachine
