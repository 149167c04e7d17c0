import TapeMachine.Proofs.Append

/-!
# Pairing of composed programs

The pairing pass does not care where it begins. What it does from some point on it would do from the
start too, but for two differences: it has the loops that were open at that point below its own, and
it counts places from there (`Pairing.under`). As long as it does not close one of those loops, the
two passes go on side by side (`readAll_under`), and if there are none, they also fail side by side
(`readAll_under_error`). A program whose brackets match leaves no loop open, and so the table of a
program behind it is its own table at an offset (`pairing_append`); neither does such a program
inside a loop touch the loop around it (`pairing_loop`). The main statement is `brackets_compose`.
-/

namespace TapeMachine

/-- The table of a program that begins at the place `k` of another one. -/
def Partners.shift (k : Nat) (partners : Partners) : Partners := partners.map (Option.map (· + k))

/-- What a pass knows that has gone on from `base` as it would have gone from the start to `p`:
the loops open at `base` lie under those open at `p`. -/
def Pairing.under (base p : Pairing) : Pairing :=
  ⟨p.pending.map (· + base.partners.size) ++ base.pending,
    base.partners ++ Partners.shift base.partners.size p.partners⟩

/-- A loop whose body is the program. -/
def Program.loop (p : Program) : Program := .ofList (.loopBegin :: p.toList ++ [.loopEnd])

namespace Partners

variable {partners others : Partners} {index k : Nat}

@[simp] lemma size_shift (k : Nat) (partners : Partners) :
    (shift k partners).size = partners.size := by
  rw [shift, Array.size_map]

@[simp] lemma shift_empty (k : Nat) : shift k #[] = #[] := by
  rw [shift, Array.map_empty]

lemma shift_push (k : Nat) (partners : Partners) (entry : Option Nat) :
    shift k (partners.push entry) = (shift k partners).push (entry.map (· + k)) := by
  rw [shift, Array.map_push, shift]

lemma shift_setIfInBounds (k : Nat) (partners : Partners) (index other : Nat) :
    shift k (partners.setIfInBounds index (some other)) =
      (shift k partners).setIfInBounds index (some (other + k)) := by
  rw [shift, Array.map_setIfInBounds, shift]
  rfl

lemma partner?_append_left (h : index < partners.size) :
    Partners.partner? (partners ++ others) index = partners.partner? index := by
  rw [partner?, partner?, Array.getElem?_append_left h]

lemma partner?_append_right (partners others : Partners) (index : Nat) :
    Partners.partner? (partners ++ others) (index + partners.size) = others.partner? index := by
  rw [partner?, partner?, Array.getElem?_append_right (Nat.le_add_left _ _), Nat.add_sub_cancel]

lemma partner?_shift (k : Nat) (partners : Partners) (index : Nat) :
    (shift k partners).partner? index = (partners.partner? index).map (· + k) := by
  rw [partner?, partner?, shift, Array.getElem?_map]
  cases partners[index]? with
  | none => rfl
  | some entry => cases entry <;> rfl

end Partners

/-! ### Reading from some point on -/

namespace Pairing

variable {base p q : Pairing} {i : Instr} {is : List Instr} {e : Imbalance}

@[simp] lemma under_empty (base : Pairing) : base.under empty = base := by
  obtain ⟨pending, partners⟩ := base
  simp [under, empty]

lemma read_under (base : Pairing) (h : p.read i = .ok q) :
    (base.under p).read i = .ok (base.under q) := by
  obtain ⟨pending, partners⟩ := p
  obtain ⟨open', table⟩ := base
  cases i with
  | act action =>
    cases h
    simp [under, read, Partners.shift_push]
  | loopBegin =>
    cases h
    simp [under, read, Partners.shift_push, Nat.add_comm]
  | loopEnd =>
    cases pending with
    | nil => cases h
    | cons start outer =>
      cases h
      simp only [under, read, List.map_cons, List.cons_append, Partners.shift_setIfInBounds,
        Partners.shift_push, Array.size_append, Partners.size_shift, Option.map_some]
      rw [← Array.append_push, Array.setIfInBounds_append_right (by omega), Nat.add_sub_cancel,
        Nat.add_comm table.size]

/-- With no loop open before, the same instruction is at fault, and in the same way. -/
lemma read_under_error (hbase : base.pending = []) (h : p.read i = .error e) :
    (base.under p).read i = .error (e.shift base.partners.size) := by
  obtain ⟨pending, partners⟩ := p
  obtain ⟨open', table⟩ := base
  cases hbase
  cases i with
  | act action => cases h
  | loopBegin => cases h
  | loopEnd =>
    cases pending with
    | nil =>
      cases h
      simp [under, read, Imbalance.shift, Nat.add_comm]
    | cons start outer => cases h

theorem readAll_under (base : Pairing) (h : p.readAll is = .ok q) :
    (base.under p).readAll is = .ok (base.under q) := by
  induction is generalizing p with
  | nil =>
    cases h
    rfl
  | cons i is ih =>
    rw [readAll_cons] at h ⊢
    obtain ⟨r, hr, hrest⟩ := bind_eq_ok_iff.mp h
    rw [read_under base hr]
    exact ih hrest

theorem readAll_under_error (hbase : base.pending = []) (h : p.readAll is = .error e) :
    (base.under p).readAll is = .error (e.shift base.partners.size) := by
  induction is generalizing p with
  | nil => cases h
  | cons i is ih =>
    rw [readAll_cons] at h ⊢
    cases hr : p.read i with
    | error e' =>
      rw [hr] at h
      cases h
      rw [read_under_error hbase hr]
      rfl
    | ok r =>
      rw [hr] at h
      rw [read_under base hr]
      exact ih h

/-- Loops that are open at the end are reported as they are, if none was open before. -/
lemma finish_under (hbase : base.pending = []) (p : Pairing) : (base.under p).finish =
    match p.finish with
    | .ok partners => .ok (base.partners ++ Partners.shift base.partners.size partners)
    | .error e => .error (e.shift base.partners.size) := by
  obtain ⟨pending, partners⟩ := p
  obtain ⟨open', table⟩ := base
  cases hbase
  cases pending with
  | nil => rfl
  | cons start outer => simp [under, finish, Imbalance.shift]

end Pairing

lemma readAll_of_pairBrackets {is : List Instr} {partners : Partners}
    (h : pairBrackets is = .ok partners) : Pairing.empty.readAll is = .ok ⟨[], partners⟩ := by
  unfold pairBrackets at h
  split at h
  · next p hr =>
    obtain ⟨pending, table⟩ := p
    cases pending with
    | nil =>
      cases h
      exact hr
    | cons start outer => cases h
  · cases h

/-- What comes behind a sequence in balance is paired, or is at fault, as it would be alone. -/
theorem pairBrackets_append {is : List Instr} {partners : Partners}
    (h : pairBrackets is = .ok partners) (js : List Instr) : pairBrackets (is ++ js) =
    match pairBrackets js with
    | .ok others => .ok (partners ++ Partners.shift partners.size others)
    | .error e => .error (e.shift partners.size) := by
  have hread : Pairing.empty.readAll (is ++ js) =
      (Pairing.under ⟨[], partners⟩ .empty).readAll js := by
    rw [Pairing.readAll_append, readAll_of_pairBrackets h, Pairing.under_empty]
    rfl
  rw [pairBrackets, pairBrackets, hread]
  cases hr : Pairing.empty.readAll js with
  | error e => rw [Pairing.readAll_under_error rfl hr]
  | ok q =>
    rw [Pairing.readAll_under _ hr]
    exact Pairing.finish_under rfl q

/-- A loop around a sequence in balance adds a pair to the table, and nothing else changes in it. -/
theorem pairBrackets_loop {is : List Instr} {partners : Partners}
    (h : pairBrackets is = .ok partners) : pairBrackets (.loopBegin :: is ++ [.loopEnd]) =
      .ok (#[some (partners.size + 1)] ++ Partners.shift 1 partners ++ #[some 0]) := by
  -- behind the loop begin the pass has one loop open and one entry in its table
  have hread : Pairing.empty.readAll (.loopBegin :: is) =
      .ok (Pairing.under ⟨[0], #[none]⟩ ⟨[], partners⟩) := by
    rw [← Pairing.readAll_under _ (readAll_of_pairBrackets h), Pairing.under_empty]
    rfl
  rw [pairBrackets, Pairing.readAll_append, hread]
  simp [bind, Except.bind, Pairing.readAll, Pairing.read, Pairing.under, Pairing.finish,
    Nat.add_comm 1]

/-! ### Programs -/

namespace Program

variable {p q : Program} {partners others : Partners} {e : Imbalance}

@[simp] lemma toList_loop (p : Program) : p.loop.toList = .loopBegin :: p.toList ++ [.loopEnd] := by
  simp [loop, toList]

@[simp] lemma size_loop (p : Program) : p.loop.size = p.size + 2 := by
  rw [← length_toList, toList_loop, List.length_append, List.length_cons, length_toList]
  rfl

lemma pairing_eq_toList (p : Program) : p.pairing = pairBrackets p.toList := p.pairing_eq

lemma imbalance?_eq_some_iff_pairing : p.imbalance? = some e ↔ p.pairing = .error e := by
  rw [imbalance?]
  cases p.pairing <;> simp

lemma partner?_of_pairing (h : p.pairing = .ok partners) (index : Nat) :
    p.partner? index = partners.partner? index := by
  rw [partner?, h]

lemma exists_pairing (hp : p.bracketsMatch = true) :
    ∃ partners : Partners, p.pairing = .ok partners ∧ partners.size = p.size := by
  obtain ⟨partners, h, ht⟩ := exists_partners hp
  exact ⟨partners, h, ht.size.trans p.length_toList⟩

lemma pairing_append (hp : p.pairing = .ok partners) (hsize : partners.size = p.size)
    (hq : q.pairing = .ok others) :
    (p.append q).pairing = .ok (partners ++ Partners.shift p.size others) := by
  rw [pairing_eq_toList] at hp hq ⊢
  rw [toList_append, pairBrackets_append hp, hq, hsize]

lemma imbalance?_append (hp : p.bracketsMatch = true) (hq : q.imbalance? = some e) :
    (p.append q).imbalance? = some (e.shift p.size) := by
  obtain ⟨partners, hpairing, hsize⟩ := exists_pairing hp
  rw [imbalance?_eq_some_iff_pairing, pairing_eq_toList] at hq ⊢
  rw [pairing_eq_toList] at hpairing
  rw [toList_append, pairBrackets_append hpairing, hq, hsize]

lemma partner?_append_left (hp : p.bracketsMatch = true) (hq : q.bracketsMatch = true)
    {i : Nat} (hi : i < p.size) : (p.append q).partner? i = p.partner? i := by
  obtain ⟨partners, hpairing, hsize⟩ := exists_pairing hp
  obtain ⟨others, hothers, -⟩ := exists_pairing hq
  rw [partner?_of_pairing (pairing_append hpairing hsize hothers), partner?_of_pairing hpairing,
    Partners.partner?_append_left (hsize ▸ hi)]

lemma partner?_append_right (hp : p.bracketsMatch = true) (hq : q.bracketsMatch = true)
    (i : Nat) : (p.append q).partner? (i + p.size) = (q.partner? i).map (· + p.size) := by
  obtain ⟨partners, hpairing, hsize⟩ := exists_pairing hp
  obtain ⟨others, hothers, -⟩ := exists_pairing hq
  rw [partner?_of_pairing (pairing_append hpairing hsize hothers), partner?_of_pairing hothers,
    ← Partners.partner?_shift, ← hsize, Partners.partner?_append_right]

lemma pairing_loop (hp : p.pairing = .ok partners) (hsize : partners.size = p.size) :
    p.loop.pairing = .ok (#[some (p.size + 1)] ++ Partners.shift 1 partners ++ #[some 0]) := by
  rw [pairing_eq_toList] at hp ⊢
  rw [toList_loop, pairBrackets_loop hp, hsize]

lemma bracketsMatch_loop (hp : p.bracketsMatch = true) : p.loop.bracketsMatch = true := by
  rw [bracketsMatch_iff] at hp ⊢
  rw [toList_loop]
  exact hp.loop

lemma partner?_loop_first (hp : p.bracketsMatch = true) :
    p.loop.partner? 0 = some (p.size + 1) := by
  obtain ⟨partners, hpairing, hsize⟩ := exists_pairing hp
  rw [partner?_of_pairing (pairing_loop hpairing hsize), Array.append_assoc,
    Partners.partner?_append_left (by simp)]
  rfl

lemma partner?_loop_last (hp : p.bracketsMatch = true) :
    p.loop.partner? (p.size + 1) = some 0 := by
  obtain ⟨partners, hpairing, hsize⟩ := exists_pairing hp
  have hbefore : (#[some (p.size + 1)] ++ Partners.shift 1 partners).size = p.size + 1 := by
    simp [hsize, Nat.add_comm 1]
  have hlast := Partners.partner?_append_right
    (#[some (p.size + 1)] ++ Partners.shift 1 partners) #[some 0] 0
  rw [Nat.zero_add, hbefore] at hlast
  rw [partner?_of_pairing (pairing_loop hpairing hsize), hlast]
  rfl

lemma partner?_loop_inside (hp : p.bracketsMatch = true) {i : Nat} (hi : i < p.size) :
    p.loop.partner? (i + 1) = (p.partner? i).map (· + 1) := by
  obtain ⟨partners, hpairing, hsize⟩ := exists_pairing hp
  have hinside : i + 1 < (#[some (p.size + 1)] ++ Partners.shift 1 partners).size := by
    simp [hsize, Nat.add_comm 1, hi]
  rw [partner?_of_pairing (pairing_loop hpairing hsize), partner?_of_pairing hpairing,
    Partners.partner?_append_left hinside, ← Partners.partner?_shift]
  exact Partners.partner?_append_right #[some (p.size + 1)] _ i

/-- Brackets are paired part by part. Behind a program whose brackets match, the table of another
program is the same at an offset, and so is what is wrong with its brackets. A loop around such a
program has its table one place further on, and a pair of the first place and the last. -/
theorem brackets_compose (p : Program) (hp : p.bracketsMatch = true) :
    (∀ q : Program, q.bracketsMatch = true →
      (p.append q).bracketsMatch = true ∧
      (∃ partners others, p.pairing = .ok partners ∧ q.pairing = .ok others ∧
        (p.append q).pairing = .ok (partners ++ Partners.shift p.size others)) ∧
      (∀ i < p.size, (p.append q).partner? i = p.partner? i) ∧
      ∀ i, (p.append q).partner? (i + p.size) = (q.partner? i).map (· + p.size)) ∧
    (∀ q : Program,
      (∀ index, q.imbalance? = some (.unmatchedEnd index) →
        (p.append q).imbalance? = some (.unmatchedEnd (index + p.size))) ∧
      ∀ index unclosed, q.imbalance? = some (.unmatchedBegin index unclosed) →
        (p.append q).imbalance? = some (.unmatchedBegin (index + p.size) unclosed)) ∧
    p.loop.bracketsMatch = true ∧
    (∃ partners, p.pairing = .ok partners ∧
      p.loop.pairing = .ok (#[some (p.size + 1)] ++ Partners.shift 1 partners ++ #[some 0])) ∧
    p.loop.partner? 0 = some (p.size + 1) ∧ p.loop.partner? (p.size + 1) = some 0 ∧
    ∀ i < p.size, p.loop.partner? (i + 1) = (p.partner? i).map (· + 1) := by
  obtain ⟨partners, hpairing, hsize⟩ := exists_pairing hp
  refine ⟨fun q hq => ?_, fun q => ⟨fun index => imbalance?_append hp,
    fun index unclosed => imbalance?_append hp⟩, bracketsMatch_loop hp,
    ⟨partners, hpairing, pairing_loop hpairing hsize⟩, partner?_loop_first hp,
    partner?_loop_last hp, fun i => partner?_loop_inside hp⟩
  obtain ⟨others, hothers, -⟩ := exists_pairing hq
  exact ⟨bracketsMatch_append hp hq,
    ⟨partners, others, hpairing, hothers, pairing_append hpairing hsize hothers⟩,
    fun i => partner?_append_left hp hq, partner?_append_right hp hq⟩

/-- Behind a loop, an open loop is reported where it is, and a loop in a loop is paired outside. -/
theorem brackets_compose_open :
    ((ofList [.loopBegin, .act .print, .loopEnd]).append (ofList [.loopBegin])).imbalance? =
        some (.unmatchedBegin 3 1) ∧
      (ofList [.loopBegin, .act .print, .loopEnd]).loop.partner? 0 = some 4 := by
  have hcompose := brackets_compose (ofList [.loopBegin, .act .print, .loopEnd]) (by decide)
  exact ⟨(hcompose.2.1 (ofList [.loopBegin])).2 0 1 (by decide), hcompose.2.2.2.2.1⟩

end Program

end TapeMachine
