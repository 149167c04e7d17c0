import TapeMachine.Proofs.Append

/-!
# Repairing unmatched brackets

An imbalance says what can be done about it. Where loops are left open, the pairing pass goes on
behind the program with the open loops on its stack, so that loop ends put there close them from the
innermost out (`Pairing.readAll_ends`): as many as are reported open repair the program, with fewer
some of the outer loops stay open, and the first one too many is the next fault. A loop end that
closes no loop is at fault wherever the program goes on (`FallsAt.append`). The main statement is
`imbalance_repair`.
-/

namespace TapeMachine

variable {is : List Instr} {index unclosed k : Nat} {pending outer : List Nat}
  {partners : Partners} {p : Program}

/-- The program with `count` loop ends put behind it. -/
def Program.close (p : Program) (count : Nat) : Program :=
  p.append (.ofList (List.replicate count .loopEnd))

lemma Program.toList_close (p : Program) (count : Nat) :
    (p.close count).toList = p.toList ++ List.replicate count .loopEnd := by
  rw [close, toList_append]
  simp [toList]

/-! ### Loops left open -/

lemma Stacked.drop (h : Stacked is pending) (k : Nat) : Stacked is (pending.drop k) := by
  induction pending generalizing k with
  | nil => rwa [List.drop_nil]
  | cons start outer ih =>
    cases k with
    | zero => exact h
    | succ k => exact ih h.2.2 k

namespace Pairing

/-- Loop ends close the pending loops, innermost first. -/
theorem readAll_ends (partners : Partners) (hk : k ≤ pending.length) : ∃ partners',
    (⟨pending, partners⟩ : Pairing).readAll (List.replicate k .loopEnd) =
      .ok ⟨pending.drop k, partners'⟩ := by
  induction k generalizing pending partners with
  | zero => exact ⟨partners, rfl⟩
  | succ k ih =>
    cases pending with
    | nil => exact absurd hk (Nat.not_succ_le_zero k)
    | cons start outer =>
      rw [List.replicate_succ, readAll_cons]
      exact ih _ (Nat.le_of_succ_le_succ hk)

theorem readAll_ends_error (partners : Partners) (hk : pending.length < k) :
    (⟨pending, partners⟩ : Pairing).readAll (List.replicate k .loopEnd) =
      .error (.unmatchedEnd (partners.size + pending.length)) := by
  induction pending generalizing k partners with
  | nil =>
    obtain ⟨k, rfl⟩ := Nat.exists_eq_add_one.mpr hk
    rfl
  | cons start outer ih =>
    obtain ⟨k, rfl⟩ := Nat.exists_eq_add_one.mpr (Nat.zero_lt_of_lt hk)
    rw [List.replicate_succ, readAll_cons]
    refine (ih _ (Nat.lt_of_succ_lt_succ hk)).trans ?_
    simp only [Array.size_setIfInBounds, Array.size_push, List.length_cons]
    rw [Nat.add_right_comm, Nat.add_assoc]

lemma eq_unmatchedEnd_of_readAll {q : Pairing} {e : Imbalance} (h : q.readAll is = .error e) :
    ∃ index, e = .unmatchedEnd index := by
  induction is generalizing q with
  | nil => cases h
  | cons i is ih =>
    rw [readAll_cons] at h
    cases hr : q.read i with
    | ok r =>
      rw [hr] at h
      exact ih h
    | error e' =>
      rw [hr] at h
      cases h
      obtain ⟨pending, partners⟩ := q
      cases i with
      | act action => cases hr
      | loopBegin => cases hr
      | loopEnd =>
        cases pending with
        | nil =>
          cases hr
          exact ⟨_, rfl⟩
        | cons start outer => cases hr

end Pairing

lemma tracks_of_readAll {q : Pairing} (h : Pairing.empty.readAll is = .ok q) : Tracks is q :=
  Tracks.empty.readAll h

lemma exists_readAll_of_unmatchedBegin
    (h : pairBrackets is = .error (.unmatchedBegin index unclosed)) : ∃ outer partners,
      Pairing.empty.readAll is = .ok ⟨index :: outer, partners⟩ ∧
        unclosed = (index :: outer).length := by
  unfold pairBrackets at h
  split at h
  · next q hr =>
    obtain ⟨pending, partners⟩ := q
    cases pending with
    | nil => cases h
    | cons start outer =>
      cases h
      exact ⟨outer, partners, hr, rfl⟩
  · next e hr =>
    obtain ⟨index', rfl⟩ := Pairing.eq_unmatchedEnd_of_readAll hr
    cases h

namespace Program

/-- With loop ends put behind it, a program has the pass go on from where it left off. -/
lemma pairing_close (h : Pairing.empty.readAll p.toList = .ok ⟨pending, partners⟩) (k : Nat) :
    (p.close k).pairing =
      match (⟨pending, partners⟩ : Pairing).readAll (List.replicate k .loopEnd) with
      | .ok q => q.finish
      | .error e => .error e := by
  have hread := Pairing.readAll_append .empty p.toList (List.replicate k .loopEnd)
  rw [h] at hread
  rw [(p.close k).pairing_eq, ← toList, toList_close, pairBrackets, hread]
  rfl

lemma imbalance?_of_pairing {e : Imbalance} (h : p.pairing = .error e) :
    p.imbalance? = some e := by
  rw [imbalance?, h]

lemma imbalance?_close_of_lt (h : Pairing.empty.readAll p.toList = .ok ⟨pending, partners⟩)
    (hk : k < pending.length) : ∃ index, (p.close k).imbalance? =
      some (.unmatchedBegin index (pending.length - k)) ∧ OpenAt p.toList index ∧
        height p.toList index + 1 = (pending.length - k : Nat) := by
  obtain ⟨partners', hends⟩ := Pairing.readAll_ends partners hk.le
  have hpairing := pairing_close h k
  rw [hends] at hpairing
  have hstacked := (tracks_of_readAll h).stacked.drop k
  have hlength := List.length_drop (i := k) (l := pending)
  cases hdrop : pending.drop k with
  | nil =>
    rw [hdrop, List.length_nil] at hlength
    omega
  | cons index outer =>
    rw [hdrop] at hpairing hstacked hlength
    rw [List.length_cons] at hlength
    refine ⟨index, ?_, hstacked.1, ?_⟩
    · rw [imbalance?_of_pairing hpairing, hlength]
    · rw [hstacked.2.1, ← hlength]
      rfl

lemma imbalance?_close_of_gt (h : Pairing.empty.readAll p.toList = .ok ⟨pending, partners⟩)
    (hk : pending.length < k) :
    (p.close k).imbalance? = some (.unmatchedEnd (p.size + pending.length)) := by
  have hsize : partners.size = p.toList.length := (tracks_of_readAll h).size
  have hpairing := pairing_close h k
  rw [Pairing.readAll_ends_error partners hk, hsize, length_toList] at hpairing
  exact imbalance?_of_pairing hpairing

lemma imbalance?_close_length (h : Pairing.empty.readAll p.toList = .ok ⟨pending, partners⟩) :
    (p.close pending.length).imbalance? = none := by
  obtain ⟨partners', hends⟩ := Pairing.readAll_ends partners (Nat.le_refl pending.length)
  have hpairing := pairing_close h pending.length
  rw [hends, List.drop_length] at hpairing
  rw [imbalance?, hpairing]
  rfl

lemma bracketsMatch_close_iff
    (h : Pairing.empty.readAll p.toList = .ok ⟨pending, partners⟩) :
    (p.close k).bracketsMatch = true ↔ k = pending.length := by
  rw [bracketsMatch]
  constructor
  · intro hmatch
    by_contra hne
    rcases Nat.lt_or_gt_of_ne hne with hlt | hgt
    · obtain ⟨index, hopen, -⟩ := imbalance?_close_of_lt h hlt
      rw [hopen] at hmatch
      cases hmatch
    · rw [imbalance?_close_of_gt h hgt] at hmatch
      cases hmatch
  · rintro rfl
    rw [imbalance?_close_length h]
    rfl

/-- The first loop end put behind a program closes the innermost of its open loops. -/
lemma paired_close (h : Pairing.empty.readAll p.toList = .ok ⟨index :: outer, partners⟩)
    (k : Nat) : Paired (p.close (k + 1)).toList index p.size := by
  have htracks := tracks_of_readAll h
  obtain ⟨hopen, hheight, -⟩ := htracks.stacked
  have hdepth : depth p.toList = height p.toList index + 1 := by
    rw [hheight]
    exact htracks.depth_eq
  have hpair := (paired_concat_loopEnd hopen hdepth).append (List.replicate k .loopEnd)
  rw [List.append_assoc, List.singleton_append, ← List.replicate_succ, length_toList] at hpair
  rw [toList_close]
  exact hpair

end Program

/-! ### A loop end too many -/

namespace FallsAt

lemma append (h : FallsAt is k) (js : List Instr) : FallsAt (is ++ js) k := by
  have hlt := h.lt_length
  refine ⟨?_, ?_, fun j hj => ?_⟩
  · rw [List.length_append]
    omega
  · rw [height_append_left _ hlt]
    exact h.below
  · rw [height_append_left _ (by omega)]
    exact h.nonneg j hj

lemma loopEnd (h : FallsAt is k) : is[k]? = some .loopEnd ∧ height is k = 0 := by
  have hlt := h.lt_length
  have hi : is[k]? = some is[k] := List.getElem?_eq_getElem hlt
  have hnonneg := h.nonneg k (Nat.le_refl k)
  have hbelow := h.below
  rw [height_succ hi] at hbelow
  cases hinstr : is[k] with
  | act action =>
    rw [hinstr, Instr.rise] at hbelow
    omega
  | loopBegin =>
    rw [hinstr, Instr.rise] at hbelow
    omega
  | loopEnd =>
    rw [hinstr, Instr.rise] at hbelow
    exact ⟨hi.trans (congrArg some hinstr), by omega⟩

lemma balanced_take (h : FallsAt is k) : Balanced (is.take k) := by
  have hlt := h.lt_length
  have hlength : (is.take k).length = k := by
    rw [List.length_take, Nat.min_eq_left hlt.le]
  have htake : ∀ j ≤ k, height (is.take k) j = height is j := by
    intro j hj
    rw [height, height, List.take_take, Nat.min_eq_left hj]
  rw [balanced_iff_height, hlength]
  refine ⟨fun j hj => ?_, ?_⟩
  · rw [htake j hj]
    exact h.nonneg j hj
  · rw [htake k (Nat.le_refl k)]
    exact h.loopEnd.2

end FallsAt

/-! ### What an imbalance says -/

/-- How a program can be repaired, and when it cannot. If loops are left open, as many loop ends as
are reported open close them, the innermost by the first of these ends; with fewer the outer ones
stay open, and the first one too many is at fault. If a loop end closes no loop, the brackets
before it match, and the report stays whatever is put behind the program. -/
theorem imbalance_repair (p : Program) :
    (∀ index unclosed, p.imbalance? = some (.unmatchedBegin index unclosed) →
      (∀ k, (p.close k).bracketsMatch = true ↔ k = unclosed) ∧
      (p.close unclosed).jumpTarget index = .ok p.size ∧
      (∀ k, unclosed < k →
        (p.close k).imbalance? = some (.unmatchedEnd (p.size + unclosed))) ∧
      ∀ k < unclosed, ∃ index', (p.close k).imbalance? =
        some (.unmatchedBegin index' (unclosed - k)) ∧ OpenAt p.toList index' ∧
          height p.toList index' + 1 = (unclosed - k : Nat)) ∧
    ∀ index, p.imbalance? = some (.unmatchedEnd index) →
      p.instrs[index]? = some .loopEnd ∧
      (Program.ofList (p.toList.take index)).bracketsMatch = true ∧
      ∀ q : Program, (p.append q).imbalance? = some (.unmatchedEnd index) := by
  constructor
  · intro index unclosed himbalance
    rw [Program.imbalance?_eq_some_iff, ← pairBrackets_eq_error_iff] at himbalance
    obtain ⟨outer, partners, hread, rfl⟩ := exists_readAll_of_unmatchedBegin himbalance
    refine ⟨fun k => Program.bracketsMatch_close_iff hread, ?_,
      fun k => Program.imbalance?_close_of_gt hread,
      fun k => Program.imbalance?_close_of_lt hread⟩
    rw [Program.jumpTarget_eq_ok_iff ((Program.bracketsMatch_close_iff hread).mpr rfl)]
    exact Or.inl (Program.paired_close hread outer.length)
  · intro index himbalance
    have hfall : FallsAt p.toList index := Program.imbalance?_eq_some_iff.mp himbalance
    refine ⟨?_, ?_, fun q => ?_⟩
    · rw [← Program.getElem?_toList]
      exact hfall.loopEnd.1
    · rw [Program.bracketsMatch_iff, Program.toList, Program.instrs_ofList]
      exact hfall.balanced_take
    · rw [Program.imbalance?_eq_some_iff, Program.toList_append]
      exact hfall.append q.toList

/-- Two loops are open behind a closed one: two loop ends repair this, and nothing repairs a loop
end in front. -/
theorem imbalance_repair_nested :
    (Program.close (.ofList [.loopBegin, .loopBegin, .loopEnd, .act .print, .loopBegin])
        2).jumpTarget 4 = .ok 5 ∧
      ((Program.ofList [.loopBegin, .loopEnd, .loopEnd, .loopBegin]).append
        (.ofList [.loopEnd])).imbalance? = some (.unmatchedEnd 2) :=
  ⟨((imbalance_repair (.ofList [.loopBegin, .loopBegin, .loopEnd, .act .print,
      .loopBegin])).1 4 2 (by decide)).2.1,
    ((imbalance_repair (.ofList [.loopBegin, .loopEnd, .loopEnd, .loopBegin])).2 2
      (by decide)).2.2 (.ofList [.loopEnd])⟩

end TapeMachine
