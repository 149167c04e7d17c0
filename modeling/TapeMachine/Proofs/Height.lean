import Mathlib.Data.Nat.Basic
import Mathlib.Order.Basic
import Mathlib.Tactic.Common
import TapeMachine.Brackets.Depth

/-!
# Heights in an instruction sequence

The height of a place is the depth after the instructions before it. A loop begin and a loop end
are a pair if what stands between them is balanced, and in heights that is linear: between the two
the sequence never comes below the height behind the loop begin, and it is at that height again
before the loop end. From this follow the main statements of this file, that a bracket has at most
one partner (`Paired.finish_unique`, `Paired.start_unique`) and that two pairs never cross
(`Paired.nested_or_disjoint`).
-/

namespace TapeMachine

/-- The depth after the first `k` instructions. -/
def height (is : List Instr) (k : Nat) : Int := depth (is.take k)

/-- What stands between two places. -/
def between (is : List Instr) (start finish : Nat) : List Instr := (is.take finish).drop (start + 1)

/-- The loop that begins at `start` ends at `finish`. -/
structure Paired (is : List Instr) (start finish : Nat) : Prop where
  begins : is[start]? = some .loopBegin
  ends : is[finish]? = some .loopEnd
  before : start < finish
  balanced : Balanced (between is start finish)

/-- A loop begins at `start`, and it is still open after the last instruction. -/
structure OpenAt (is : List Instr) (start : Nat) : Prop where
  begins : is[start]? = some .loopBegin
  above : ∀ k, start < k → k ≤ is.length → height is start < height is k

variable {is js : List Instr} {i : Instr} {k start finish start' finish' : Nat}

@[simp] lemma height_zero (is : List Instr) : height is 0 = 0 := by
  simp [height]

lemma height_length (is : List Instr) : height is is.length = depth is := by
  rw [height, List.take_length]

lemma height_succ (h : is[k]? = some i) : height is (k + 1) = height is k + i.rise := by
  rw [height, height, List.take_add_one, h]
  simp

lemma height_append_left (js : List Instr) (h : k ≤ is.length) :
    height (is ++ js) k = height is k := by
  rw [height, height, List.take_append_of_le_length h]

lemma height_append_right (is js : List Instr) (k : Nat) :
    height (is ++ js) (is.length + k) = depth is + height js k := by
  rw [height, List.take_length_add_append, depth_append, height]

lemma height_concat (is : List Instr) (i : Instr) :
    height (is ++ [i]) (is.length + 1) = height is is.length + i.rise := by
  rw [height_append_right, height_length]
  simp [height]

lemma lt_length_of_getElem? (h : is[k]? = some i) : k < is.length :=
  (List.getElem?_eq_some_iff.mp h).1

lemma balanced_iff_height :
    Balanced is ↔ (∀ k ≤ is.length, 0 ≤ height is k) ∧ height is is.length = 0 := by
  rw [height_length]
  rfl

lemma length_between (hf : finish ≤ is.length) :
    (between is start finish).length = finish - (start + 1) := by
  simp [between, Nat.min_eq_left hf]

lemma height_between (hk : start + 1 + k ≤ finish) :
    height (between is start finish) k = height is (start + 1 + k) - height is (start + 1) := by
  have hsplit : is.take (start + 1 + k) =
      is.take (start + 1) ++ (between is start finish).take k := by
    rw [between, List.drop_take, List.take_take, Nat.min_eq_left (by omega), List.take_add]
  rw [height, height, height, hsplit, depth_append]
  omega

lemma balanced_between_iff (hb : start < finish) (hf : finish ≤ is.length) :
    Balanced (between is start finish) ↔
      (∀ k, start < k → k ≤ finish → height is (start + 1) ≤ height is k) ∧
        height is finish = height is (start + 1) := by
  have hlast : start + 1 + (finish - (start + 1)) = finish := by omega
  rw [balanced_iff_height, length_between hf, height_between (by omega), hlast]
  constructor
  · rintro ⟨hnonneg, hend⟩
    refine ⟨fun k hk hkf => ?_, by omega⟩
    have h := hnonneg (k - (start + 1)) (by omega)
    have hk' : start + 1 + (k - (start + 1)) = k := by omega
    rw [height_between (by omega), hk'] at h
    omega
  · rintro ⟨habove, hend⟩
    refine ⟨fun k hk => ?_, by omega⟩
    have h := habove (start + 1 + k) (by omega) (by omega)
    rw [height_between (by omega)]
    omega

/-! ### Pairs -/

lemma paired_iff_height : Paired is start finish ↔
    is[start]? = some .loopBegin ∧ is[finish]? = some .loopEnd ∧ start < finish ∧
      (∀ k, start < k → k ≤ finish → height is start < height is k) ∧
        height is (finish + 1) = height is start := by
  constructor
  · rintro ⟨hs, hf, hlt, hbal⟩
    obtain ⟨habove, hend⟩ :=
      (balanced_between_iff hlt (lt_length_of_getElem? hf).le).mp hbal
    have hstart := height_succ hs
    have hfinish := height_succ hf
    simp only [Instr.rise] at hstart hfinish
    refine ⟨hs, hf, hlt, fun k hk hkf => ?_, by omega⟩
    have h := habove k hk hkf
    omega
  · rintro ⟨hs, hf, hlt, habove, hend⟩
    have hstart := height_succ hs
    have hfinish := height_succ hf
    simp only [Instr.rise] at hstart hfinish
    refine ⟨hs, hf, hlt, (balanced_between_iff hlt (lt_length_of_getElem? hf).le).mpr
      ⟨fun k hk hkf => ?_, by omega⟩⟩
    have h := habove k hk hkf
    omega

namespace Paired

lemma finish_lt_length (h : Paired is start finish) : finish < is.length :=
  lt_length_of_getElem? h.ends

lemma above (h : Paired is start finish) (hs : start < k) (hf : k ≤ finish) :
    height is start < height is k :=
  (paired_iff_height.mp h).2.2.2.1 k hs hf

lemma height_finish (h : Paired is start finish) : height is (finish + 1) = height is start :=
  (paired_iff_height.mp h).2.2.2.2

lemma height_start (h : Paired is start finish) : height is (start + 1) = height is start + 1 :=
  height_succ h.begins

/-- The two brackets of different pairs are different, also a begin of one and an end of the
other. -/
lemma start_ne_finish (h : Paired is start finish) (h' : Paired is start' finish') :
    start ≠ finish' := by
  rintro rfl
  have hne := h.begins.symm.trans h'.ends
  cases hne

theorem finish_unique (h : Paired is start finish) (h' : Paired is start finish') :
    finish = finish' := by
  -- behind the first end the height is that of the common begin, so the second loop is over
  rcases Nat.lt_trichotomy finish finish' with hlt | heq | hlt
  · have h₁ := h'.above (k := finish + 1) (by have := h.before; omega) hlt
    have h₂ := h.height_finish
    omega
  · exact heq
  · have h₁ := h.above (k := finish' + 1) (by have := h'.before; omega) hlt
    have h₂ := h'.height_finish
    omega

lemma inner_finish_lt (h : Paired is start finish) (h' : Paired is start' finish')
    (hs : start < start') (hi : start' < finish) : finish' < finish := by
  by_contra hcross
  have h₁ := h.above hs hi.le
  have h₂ := h'.height_start
  have h₃ := h.height_finish
  by_cases heq : finish' = finish
  · have h₄ := h'.height_finish
    rw [heq] at h₄
    omega
  · have h₄ := h'.above (k := finish + 1) (by omega) (by omega)
    omega

theorem start_unique (h : Paired is start finish) (h' : Paired is start' finish) :
    start = start' := by
  rcases Nat.lt_trichotomy start start' with hlt | heq | hlt
  · exact absurd (h.inner_finish_lt h' hlt h'.before) (Nat.lt_irrefl _)
  · exact heq
  · exact absurd (h'.inner_finish_lt h hlt h.before) (Nat.lt_irrefl _)

/-- Of two loops the one that begins later lies inside the other or behind it. -/
theorem nested_or_disjoint (h : Paired is start finish) (h' : Paired is start' finish')
    (hs : start < start') : finish' < finish ∨ finish < start' := by
  rcases Nat.lt_trichotomy start' finish with hlt | heq | hlt
  · exact Or.inl (h.inner_finish_lt h' hs hlt)
  · exact absurd heq (h'.start_ne_finish h)
  · exact Or.inr hlt

lemma append (h : Paired is start finish) (js : List Instr) : Paired (is ++ js) start finish := by
  have hf := h.finish_lt_length
  have hs := h.before
  refine ⟨?_, ?_, hs, ?_⟩
  · rw [List.getElem?_append_left (by omega)]
    exact h.begins
  · rw [List.getElem?_append_left hf]
    exact h.ends
  · rw [between, List.take_append_of_le_length hf.le]
    exact h.balanced

lemma of_append (h : Paired (is ++ js) start finish) (hf : finish < is.length) :
    Paired is start finish := by
  have hs := h.before
  refine ⟨?_, ?_, hs, ?_⟩
  · rw [← h.begins, List.getElem?_append_left (by omega)]
  · rw [← h.ends, List.getElem?_append_left hf]
  · have hb := h.balanced
    rwa [between, List.take_append_of_le_length hf.le] at hb

end Paired

end TapeMachine
