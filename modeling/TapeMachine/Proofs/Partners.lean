import TapeMachine.Program.Basic
import TapeMachine.Proofs.Pairing

/-!
# Partners of loop brackets

A program whose brackets match answers for the other end of a loop in three ways: by a search
forward, by a search backward and by the table. This file shows that the three give the same
answer, that it is the one pair that the bracket belongs to, and that none of them can fail at a
bracket it may be asked for. The depth that a search counts is one more than the height by which it
is above the bracket it looks for, so a search that is still under way is in at least one loop.
-/

namespace TapeMachine

variable {instrs : Array Instr} {index depth start finish : Nat}

/-! ### The searches in heights -/

lemma countLoops_eq {entry exit i : Instr} {n m : Nat} (hn : 0 < n)
    (h : (m : Int) = n + if i = entry then 1 else if i = exit then -1 else 0) :
    countLoops entry exit i n = .ok m := by
  rw [countLoops]
  by_cases hentry : i = entry
  · rw [if_pos hentry] at h ⊢
    have hm : m = n + 1 := by omega
    rw [hm]
  · rw [if_neg hentry] at h ⊢
    by_cases hexit : i = exit
    · rw [if_pos hexit] at h ⊢
      have hm : m = n - 1 := by omega
      rw [if_neg hn.ne', hm]
    · rw [if_neg hexit] at h ⊢
      have hm : m = n := by omega
      rw [hm]

lemma countLoops_enter (i : Instr) {n m : Nat} (hn : 0 < n) (h : (m : Int) = n + i.rise) :
    countLoops .loopBegin .loopEnd i n = .ok m := by
  apply countLoops_eq hn
  rw [h]
  cases i <;> rfl

lemma countLoops_leave (i : Instr) {n m : Nat} (hn : 0 < n) (h : (m : Int) = n - i.rise) :
    countLoops .loopEnd .loopBegin i n = .ok m := by
  apply countLoops_eq hn
  rw [h]
  cases i <;> rfl

lemma height_succ_of_lt (h : index < instrs.size) :
    height instrs.toList (index + 1) = height instrs.toList index + instrs[index].rise :=
  height_succ (by simp [h])

/-- A search forward finds the first loop end behind which it is lower than where it began. -/
lemma searchForward_eq (hf : instrs[finish]? = some .loopEnd) (hle : index ≤ finish)
    (hd : (depth : Int) = height instrs.toList index - height instrs.toList finish)
    (habove : ∀ k, index ≤ k → k ≤ finish →
      height instrs.toList finish ≤ height instrs.toList k) :
    searchForward instrs index (depth + 1) = .ok (some finish) := by
  obtain ⟨hsize, hget⟩ := Array.getElem?_eq_some_iff.mp hf
  induction hn : finish - index generalizing index depth with
  | zero =>
    have heq : index = finish := by omega
    subst heq
    have hzero : depth = 0 := by omega
    rw [searchForward, dif_pos hsize, hget, hzero,
      countLoops_enter .loopEnd (m := 0) (Nat.succ_pos 0) (by simp [Instr.rise])]
  | succ n ih =>
    have hlt : index < instrs.size := by omega
    have hstep := height_succ_of_lt hlt
    have hnext := habove (index + 1) (by omega) (by omega)
    obtain ⟨depth', hd'⟩ := Int.eq_ofNat_of_zero_le (Int.sub_nonneg_of_le hnext)
    have hcount : countLoops .loopBegin .loopEnd instrs[index] (depth + 1) = .ok (depth' + 1) :=
      countLoops_enter _ (Nat.succ_pos depth) (by omega)
    rw [searchForward, dif_pos hlt, hcount]
    exact ih (by omega) hd'.symm (fun k hk hkf => habove k (by omega) hkf) (by omega)

/-- A search backward finds the last loop begin behind which it is not higher than where it
began. -/
lemma searchBackward_eq (hs : instrs[start]? = some .loopBegin) (hlt : start < index)
    (hi : index ≤ instrs.size)
    (hd : (depth : Int) = height instrs.toList index - height instrs.toList (start + 1))
    (habove : ∀ k, start < k → k ≤ index →
      height instrs.toList (start + 1) ≤ height instrs.toList k) :
    searchBackward instrs index (depth + 1) = .ok (some start) := by
  induction index generalizing depth with
  | zero => omega
  | succ index ih =>
    have hsize : index < instrs.size := hi
    have hstep := height_succ_of_lt hsize
    by_cases heq : start = index
    · subst heq
      have hzero : depth = 0 := by omega
      rw [searchBackward, hs, hzero]
      simp only
      rw [countLoops_leave .loopBegin (m := 0) (Nat.succ_pos 0) (by simp [Instr.rise])]
    · have hnext := habove index (by omega) (by omega)
      obtain ⟨depth', hd'⟩ := Int.eq_ofNat_of_zero_le (Int.sub_nonneg_of_le hnext)
      have hcount : countLoops .loopEnd .loopBegin instrs[index] (depth + 1) = .ok (depth' + 1) :=
        countLoops_leave _ (Nat.succ_pos depth) (by omega)
      rw [searchBackward, Array.getElem?_eq_getElem hsize]
      simp only
      rw [hcount]
      exact ih (by omega) (by omega) hd'.symm (fun k hk hki => habove k hk (by omega))

lemma Paired.searchForward (h : Paired instrs.toList start finish) :
    searchForward instrs (start + 1) 1 = .ok (some finish) := by
  obtain ⟨habove, hend⟩ := (balanced_between_iff h.before h.finish_lt_length.le).mp h.balanced
  have hf : instrs[finish]? = some .loopEnd := by simpa using h.ends
  have hzero : ((0 : Nat) : Int) =
      height instrs.toList (start + 1) - height instrs.toList finish := by
    rw [hend]
    simp
  refine searchForward_eq hf h.before hzero fun k hk hkf => ?_
  rw [hend]
  exact habove k hk hkf

lemma Paired.searchBackward (h : Paired instrs.toList start finish) :
    searchBackward instrs finish 1 = .ok (some start) := by
  obtain ⟨habove, hend⟩ := (balanced_between_iff h.before h.finish_lt_length.le).mp h.balanced
  have hs : instrs[start]? = some .loopBegin := by simpa using h.begins
  have hf : finish ≤ instrs.size := by simpa using h.finish_lt_length.le
  have hzero : ((0 : Nat) : Int) =
      height instrs.toList finish - height instrs.toList (start + 1) := by
    rw [hend]
    simp
  exact searchBackward_eq hs h.before hf hzero habove

/-! ### Pairs of a program -/

lemma Program.getElem?_toList (p : Program) (i : Nat) : p.toList[i]? = p.instrs[i]? := by
  simp [toList]

lemma Program.length_toList (p : Program) : p.toList.length = p.size := by
  simp [toList, size]

lemma Program.lt_size_of_getElem? {p : Program} {i : Instr} (h : p.instrs[index]? = some i) :
    index < p.size :=
  (Array.getElem?_eq_some_iff.mp h).1

namespace Paired

variable {p : Program}

lemma getElem?_start (h : Paired p.toList start finish) : p.instrs[start]? = some .loopBegin := by
  rw [← p.getElem?_toList]
  exact h.begins

lemma getElem?_finish (h : Paired p.toList start finish) : p.instrs[finish]? = some .loopEnd := by
  rw [← p.getElem?_toList]
  exact h.ends

lemma start_lt_size (h : Paired p.toList start finish) : start < p.size :=
  Program.lt_size_of_getElem? h.getElem?_start

lemma finish_lt_size (h : Paired p.toList start finish) : finish < p.size :=
  Program.lt_size_of_getElem? h.getElem?_finish

end Paired

namespace Program

variable {p : Program} {i j : Nat}

/-! ### Programs whose brackets match -/

lemma imbalance?_eq_some_iff {e : Imbalance} : p.imbalance? = some e ↔ e.Describes p.toList := by
  rw [← pairBrackets_eq_error_iff, toList, ← p.pairing_eq, imbalance?]
  cases p.pairing <;> simp

theorem bracketsMatch_iff : p.bracketsMatch = true ↔ Balanced p.toList := by
  rw [← pairBrackets_isOk_iff, toList, ← p.pairing_eq, bracketsMatch, imbalance?]
  cases p.pairing <;> simp

lemma exists_partners (hp : p.bracketsMatch = true) :
    ∃ partners, p.pairing = .ok partners ∧ Tracks p.toList ⟨[], partners⟩ := by
  obtain ⟨partners, h⟩ := pairBrackets_isOk_iff.mpr (bracketsMatch_iff.mp hp)
  refine ⟨partners, ?_, tracks_of_pairBrackets h⟩
  rw [p.pairing_eq]
  exact h

lemma not_openAt (hp : p.bracketsMatch = true) : ¬OpenAt p.toList i := by
  intro h
  obtain ⟨hnonneg, hend⟩ := balanced_iff_height.mp (bracketsMatch_iff.mp hp)
  have h₁ := h.above p.toList.length h.lt_length (Nat.le_refl _)
  have h₂ := hnonneg i h.lt_length.le
  omega

lemma exists_paired_of_loopBegin (hp : p.bracketsMatch = true)
    (hi : p.instrs[i]? = some .loopBegin) : ∃ finish, Paired p.toList i finish := by
  rw [← getElem?_toList] at hi
  exact (openAt_or_paired hi).resolve_left (not_openAt hp)

lemma exists_paired_of_loopEnd (hp : p.bracketsMatch = true)
    (hi : p.instrs[i]? = some .loopEnd) : ∃ start, Paired p.toList start i := by
  obtain ⟨partners, -, ht⟩ := exists_partners hp
  rw [← getElem?_toList] at hi
  exact ht.ended i hi

theorem jumpTarget_eq_ok_iff (hp : p.bracketsMatch = true) :
    p.jumpTarget i = .ok j ↔ Paired p.toList i j ∨ Paired p.toList j i := by
  obtain ⟨partners, h, ht⟩ := exists_partners hp
  rw [← ht.partner, jumpTarget, h]
  simp only
  cases partners.partner? i <;> simp

lemma jumpTarget_eq_error (hp : p.bracketsMatch = true) (hb : p.instrs[i]? ≠ some .loopBegin)
    (he : p.instrs[i]? ≠ some .loopEnd) : p.jumpTarget i = .error (.notABracket i) := by
  obtain ⟨partners, h, ht⟩ := exists_partners hp
  have hnone : partners.partner? i = none := by
    cases hpart : partners.partner? i with
    | none => rfl
    | some j =>
      obtain hpair | hpair := (ht.partner i j).mp hpart
      · exact absurd hpair.getElem?_start hb
      · exact absurd hpair.getElem?_finish he
  rw [jumpTarget, h]
  simp only [hnone]

lemma expectBracket_eq_ok {b : Instr} (hp : p.bracketsMatch = true) (hi : p.instrs[i]? = some b) :
    p.expectBracket b i = .ok () := by
  simp [expectBracket, hp, hi]

lemma expectBracket_eq_error {b : Instr} (hp : p.bracketsMatch = true)
    (hi : p.instrs[i]? ≠ some b) :
    p.expectBracket b i = .error (.unexpectedInstr b i p.instrs[i]?) := by
  simp [expectBracket, hp, hi]

lemma loopEndOf_eq_ok (hp : p.bracketsMatch = true) (h : Paired p.toList i j) :
    p.loopEndOf i = .ok j := by
  rw [loopEndOf, expectBracket_eq_ok hp h.getElem?_start, h.searchForward]
  rfl

lemma loopBeginOf_eq_ok (hp : p.bracketsMatch = true) (h : Paired p.toList j i) :
    p.loopBeginOf i = .ok j := by
  rw [loopBeginOf, expectBracket_eq_ok hp h.getElem?_finish, h.searchBackward]
  rfl

lemma loopEndOf_eq_error (hp : p.bracketsMatch = true) (hi : p.instrs[i]? ≠ some .loopBegin) :
    p.loopEndOf i = .error (.unexpectedInstr .loopBegin i p.instrs[i]?) := by
  rw [loopEndOf, expectBracket_eq_error hp hi]
  rfl

lemma loopBeginOf_eq_error (hp : p.bracketsMatch = true) (hi : p.instrs[i]? ≠ some .loopEnd) :
    p.loopBeginOf i = .error (.unexpectedInstr .loopEnd i p.instrs[i]?) := by
  rw [loopBeginOf, expectBracket_eq_error hp hi]
  rfl

lemma loopEndOf_cases (hp : p.bracketsMatch = true) (i : Nat) :
    (∃ finish, Paired p.toList i finish ∧ p.loopEndOf i = .ok finish) ∨
      p.loopEndOf i = .error (.unexpectedInstr .loopBegin i p.instrs[i]?) := by
  by_cases hi : p.instrs[i]? = some .loopBegin
  · obtain ⟨finish, hpair⟩ := exists_paired_of_loopBegin hp hi
    exact Or.inl ⟨finish, hpair, loopEndOf_eq_ok hp hpair⟩
  · exact Or.inr (loopEndOf_eq_error hp hi)

lemma loopBeginOf_cases (hp : p.bracketsMatch = true) (i : Nat) :
    (∃ start, Paired p.toList start i ∧ p.loopBeginOf i = .ok start) ∨
      p.loopBeginOf i = .error (.unexpectedInstr .loopEnd i p.instrs[i]?) := by
  by_cases hi : p.instrs[i]? = some .loopEnd
  · obtain ⟨start, hpair⟩ := exists_paired_of_loopEnd hp hi
    exact Or.inl ⟨start, hpair, loopBeginOf_eq_ok hp hpair⟩
  · exact Or.inr (loopBeginOf_eq_error hp hi)

lemma loopEndOf_ne_error {fault : Fault} (hp : p.bracketsMatch = true)
    (hf : fault ≠ .unexpectedInstr .loopBegin i p.instrs[i]?) : p.loopEndOf i ≠ .error fault := by
  intro h
  obtain ⟨finish, -, hfound⟩ | hrefused := loopEndOf_cases hp i
  · rw [hfound] at h
    cases h
  · rw [hrefused] at h
    cases h
    exact hf rfl

lemma loopBeginOf_ne_error {fault : Fault} (hp : p.bracketsMatch = true)
    (hf : fault ≠ .unexpectedInstr .loopEnd i p.instrs[i]?) : p.loopBeginOf i ≠ .error fault := by
  intro h
  obtain ⟨start, -, hfound⟩ | hrefused := loopBeginOf_cases hp i
  · rw [hfound] at h
    cases h
  · rw [hrefused] at h
    cases h
    exact hf rfl

theorem loopEndOf_eq_ok_iff (hp : p.bracketsMatch = true) :
    p.loopEndOf i = .ok j ↔ Paired p.toList i j := by
  refine ⟨fun h => ?_, loopEndOf_eq_ok hp⟩
  obtain ⟨finish, hpair, hfound⟩ | hrefused := loopEndOf_cases hp i
  · rw [hfound] at h
    cases h
    exact hpair
  · rw [hrefused] at h
    cases h

theorem loopBeginOf_eq_ok_iff (hp : p.bracketsMatch = true) :
    p.loopBeginOf i = .ok j ↔ Paired p.toList j i := by
  refine ⟨fun h => ?_, loopBeginOf_eq_ok hp⟩
  obtain ⟨start, hpair, hfound⟩ | hrefused := loopBeginOf_cases hp i
  · rw [hfound] at h
    cases h
    exact hpair
  · rw [hrefused] at h
    cases h

/-! ### The three answers -/

/-- The searches and the table give one answer: the only pair that a bracket can belong to. They
give it at the brackets they may be asked for, and elsewhere they name the broken promise; in no
case does a search run out of instructions or count below zero. -/
structure OnePartner (p : Program) : Prop where
  loopEndOf_iff : ∀ i, (∃ e, p.loopEndOf i = .ok e) ↔ p.instrs[i]? = some .loopBegin
  loopBeginOf_iff : ∀ i, (∃ b, p.loopBeginOf i = .ok b) ↔ p.instrs[i]? = some .loopEnd
  jumpTarget_iff : ∀ i, (∃ j, p.jumpTarget i = .ok j) ↔
    p.instrs[i]? = some .loopBegin ∨ p.instrs[i]? = some .loopEnd
  loopEndOf_fault : ∀ i, p.instrs[i]? ≠ some .loopBegin →
    p.loopEndOf i = .error (.unexpectedInstr .loopBegin i p.instrs[i]?)
  loopBeginOf_fault : ∀ i, p.instrs[i]? ≠ some .loopEnd →
    p.loopBeginOf i = .error (.unexpectedInstr .loopEnd i p.instrs[i]?)
  jumpTarget_fault : ∀ i, p.instrs[i]? ≠ some .loopBegin → p.instrs[i]? ≠ some .loopEnd →
    p.jumpTarget i = .error (.notABracket i)
  count_nonneg : ∀ i, p.loopEndOf i ≠ .error .depthBelowZero ∧
    p.loopBeginOf i ≠ .error .depthBelowZero
  search_ends : ∀ i, p.loopEndOf i ≠ .error (.endNotFound i) ∧
    p.loopBeginOf i ≠ .error (.beginNotFound i)
  of_loopEndOf : ∀ b e, p.loopEndOf b = .ok e →
    b < e ∧ e < p.size ∧ p.instrs[e]? = some .loopEnd ∧ Balanced (between p.toList b e) ∧
      p.loopBeginOf e = .ok b ∧ p.jumpTarget b = .ok e
  of_loopBeginOf : ∀ b e, p.loopBeginOf e = .ok b → p.loopEndOf b = .ok e ∧ p.jumpTarget e = .ok b
  nested_or_disjoint : ∀ b e b' e', p.loopEndOf b = .ok e → p.loopEndOf b' = .ok e' → b < b' →
    e' < e ∨ e < b'
  only_pairing : ∀ b e, Paired p.toList b e → p.loopEndOf b = .ok e

lemma onePartner (hp : p.bracketsMatch = true) : p.OnePartner where
  loopEndOf_iff := by
    intro i
    simp only [loopEndOf_eq_ok_iff hp]
    constructor
    · rintro ⟨e, h⟩
      exact h.getElem?_start
    · exact exists_paired_of_loopBegin hp
  loopBeginOf_iff := by
    intro i
    simp only [loopBeginOf_eq_ok_iff hp]
    constructor
    · rintro ⟨b, h⟩
      exact h.getElem?_finish
    · exact exists_paired_of_loopEnd hp
  jumpTarget_iff := by
    intro i
    simp only [jumpTarget_eq_ok_iff hp]
    constructor
    · rintro ⟨j, h⟩
      exact h.imp (fun h => h.getElem?_start) (fun h => h.getElem?_finish)
    · rintro (hi | hi)
      · exact (exists_paired_of_loopBegin hp hi).imp fun _ h => Or.inl h
      · exact (exists_paired_of_loopEnd hp hi).imp fun _ h => Or.inr h
  loopEndOf_fault := fun _ => loopEndOf_eq_error hp
  loopBeginOf_fault := fun _ => loopBeginOf_eq_error hp
  jumpTarget_fault := fun _ => jumpTarget_eq_error hp
  count_nonneg := fun _ => ⟨loopEndOf_ne_error hp (by simp), loopBeginOf_ne_error hp (by simp)⟩
  search_ends := fun _ => ⟨loopEndOf_ne_error hp (by simp), loopBeginOf_ne_error hp (by simp)⟩
  of_loopEndOf := by
    intro b e h
    rw [loopEndOf_eq_ok_iff hp] at h
    exact ⟨h.before, h.finish_lt_size, h.getElem?_finish, h.balanced, loopBeginOf_eq_ok hp h,
      (jumpTarget_eq_ok_iff hp).mpr (Or.inl h)⟩
  of_loopBeginOf := by
    intro b e h
    rw [loopBeginOf_eq_ok_iff hp] at h
    exact ⟨loopEndOf_eq_ok hp h, (jumpTarget_eq_ok_iff hp).mpr (Or.inr h)⟩
  nested_or_disjoint := by
    intro b e b' e' h h' hlt
    rw [loopEndOf_eq_ok_iff hp] at h h'
    exact h.nested_or_disjoint h' hlt
  only_pairing := fun _ _ => loopEndOf_eq_ok hp

/-- In a program whose brackets match, both searches and the table give the one partner of every
bracket. Otherwise all three refuse to answer, wherever they are asked. -/
theorem partners_agree (p : Program) :
    (p.bracketsMatch = true → p.OnePartner) ∧
      (p.bracketsMatch = false → ∀ i,
        p.loopEndOf i = .error .searchWithoutMatch ∧
        p.loopBeginOf i = .error .searchWithoutMatch ∧
        p.jumpTarget i = .error .jumpWithoutMatch) := by
  refine ⟨onePartner, fun hp i => ?_⟩
  have hexpect : ∀ b, p.expectBracket b i = .error .searchWithoutMatch := by
    intro b
    simp [expectBracket, hp]
  refine ⟨?_, ?_, ?_⟩
  · rw [loopEndOf, hexpect]
    rfl
  · rw [loopBeginOf, hexpect]
    rfl
  · rw [bracketsMatch, imbalance?] at hp
    rw [jumpTarget]
    cases h : p.pairing with
    | ok partners =>
      rw [h] at hp
      cases hp
    | error e => rfl

theorem partners_agree_nested :
    (Program.ofList [.loopBegin, .loopBegin, .loopEnd, .loopEnd]).OnePartner ∧
      ∀ i, (Program.ofList [.loopEnd, .loopBegin]).jumpTarget i = .error .jumpWithoutMatch :=
  ⟨(partners_agree _).1 (by decide), fun i => ((partners_agree _).2 (by decide) i).2.2⟩

end Program

end TapeMachine
