import Mathlib.Algebra.Group.Nat.Defs
import Mathlib.Tactic.Common
import TapeMachine.Program.Listing

/-!
# Reading addresses

The digits of a number are read from the most significant on: what has been read is moved up by one
place for every digit (`numberFrom`). So the digits of a number are read back as that number, by
induction on how they were written, and the zeros in front do not matter. The main statement,
`spells_address`, says this of addresses, and that an address has more than four digits only if the
number needs them.
-/

namespace TapeMachine.Hex

def digitValue? (c : Char) : Option Nat := alphabet.idxOf? c

/-- The number that digits spell, behind digits that spell `n`. -/
def numberFrom (n : Nat) : List Char → Option Nat
  | [] => some n
  | c :: cs =>
    match digitValue? c with
    | some value => numberFrom (n * 16 + value) cs
    | none => none

/-- The number that an address is written for. -/
def ofAddress? : List Char → Option Nat
  | '0' :: 'x' :: c :: cs => numberFrom 0 (c :: cs)
  | _ => none

/-- A text is an address of `n`: four digits behind `0x`, or more if the number needs them. -/
structure Spells (n : Nat) (text : List Char) : Prop where
  read : ofAddress? text = some n
  six_le : 6 ≤ text.length
  needed : 6 < text.length → 16 ^ (text.length - 3) ≤ n

lemma digitValue?_digit {value : Nat} (h : value < 16) :
    digitValue? (digit value) = some value := by
  have hall : ∀ value < 16, digitValue? (digit value) = some value := by decide
  exact hall value h

lemma digit_mem_alphabet {value : Nat} (h : value < 16) : digit value ∈ alphabet := by
  have hall : ∀ value < 16, digit value ∈ alphabet := by decide
  exact hall value h

lemma numberFrom_append {n k : Nat} {cs : List Char} (h : numberFrom n cs = some k)
    (ds : List Char) : numberFrom n (cs ++ ds) = numberFrom k ds := by
  induction cs generalizing n with
  | nil =>
    cases h
    rfl
  | cons c cs ih =>
    rw [numberFrom] at h
    rw [List.cons_append, numberFrom]
    cases hc : digitValue? c with
    | none =>
      rw [hc] at h
      cases h
    | some value =>
      rw [hc] at h
      exact ih h

theorem numberFrom_digits (n : Nat) : numberFrom 0 (digits n) = some n := by
  induction n using digits.induct with
  | case1 n h =>
    rw [digits, if_pos h, numberFrom, digitValue?_digit h]
    simp [numberFrom]
  | case2 n h ih =>
    have hlast : numberFrom (n / 16) [digit (n % 16)] = some n := by
      rw [numberFrom, digitValue?_digit (Nat.mod_lt n (by decide))]
      exact congrArg some (Nat.div_add_mod' n 16)
    rw [digits, if_neg h, numberFrom_append ih, hlast]

lemma numberFrom_zeros (k : Nat) (cs : List Char) :
    numberFrom 0 (List.replicate k '0' ++ cs) = numberFrom 0 cs := by
  induction k with
  | zero => rfl
  | succ k ih =>
    rw [List.replicate_succ, List.cons_append, numberFrom]
    exact ih

lemma mem_alphabet_of_mem_digits {n : Nat} {c : Char} (h : c ∈ digits n) : c ∈ alphabet := by
  induction n using digits.induct with
  | case1 n hn =>
    rw [digits, if_pos hn, List.mem_singleton] at h
    exact h ▸ digit_mem_alphabet hn
  | case2 n hn ih =>
    rw [digits, if_neg hn, List.mem_append, List.mem_singleton] at h
    obtain h | rfl := h
    · exact ih h
    · exact digit_mem_alphabet (Nat.mod_lt n (by decide))

lemma length_digits_pos (n : Nat) : 0 < (digits n).length := by
  rw [digits]
  split <;> simp

lemma pow_le_of_pos {n : Nat} (h : 0 < n) : 16 ^ ((digits n).length - 1) ≤ n := by
  induction n using digits.induct with
  | case1 n hn =>
    rw [digits, if_pos hn]
    exact h
  | case2 n hn ih =>
    have hlength : (digits n).length = (digits (n / 16)).length + 1 := by
      rw [digits, if_neg hn, List.length_append, List.length_singleton]
    have hrest : (digits (n / 16)).length = (digits (n / 16)).length - 1 + 1 := by
      have := length_digits_pos (n / 16)
      omega
    have hpow := ih (by omega)
    rw [hlength, Nat.add_sub_cancel, hrest, Nat.pow_succ]
    omega

lemma toList_address (n : Nat) : (address n).toList = '0' :: 'x' :: padded 4 n := by
  simp [address]

theorem spells_address (n : Nat) : Spells n (address n).toList := by
  have hpos := length_digits_pos n
  have hlength : (padded 4 n).length = max 4 (digits n).length := by
    rw [padded, List.length_append, List.length_replicate]
    omega
  rw [toList_address]
  refine ⟨?_, ?_, fun hlong => ?_⟩
  · have hread : numberFrom 0 (padded 4 n) = some n := by
      rw [padded, numberFrom_zeros, numberFrom_digits]
    cases hpad : padded 4 n with
    | nil =>
      rw [hpad] at hlength
      simp at hlength
      omega
    | cons c cs =>
      rw [hpad] at hread
      exact hread
  · simp only [List.length_cons, hlength]
    omega
  · simp only [List.length_cons, hlength] at hlong ⊢
    have hmax : max 4 (digits n).length = (digits n).length := by omega
    rw [hmax]
    refine pow_le_of_pos (Nat.pos_of_ne_zero ?_)
    rintro rfl
    have hzero : (digits 0).length = 1 := by
      rw [digits, if_pos (Nat.zero_lt_succ 15)]
      rfl
    omega

lemma mem_address {n : Nat} {c : Char} (h : c ∈ (address n).toList) : c ∈ 'x' :: alphabet := by
  rw [toList_address, padded, List.mem_cons, List.mem_cons, List.mem_append] at h
  obtain rfl | rfl | h | h := h
  · decide
  · decide
  · rw [List.eq_of_mem_replicate h]
    decide
  · exact List.mem_cons_of_mem _ (mem_alphabet_of_mem_digits h)

end TapeMachine.Hex
