import TapeMachine.Proofs.Safety

/-!
# Validation

A program is refused for what is first wrong with its brackets, said in heights: the first place
where the sequence comes below the ground, or, if it never does, the innermost loop that is left
open and the height at the end, which is the number of open loops. The main statement,
`validation_exact`, says this of the report of the brackets, of validation and of every run: a
program that is refused is not even started.
-/

namespace TapeMachine.Program

variable {p : Program}

lemma exists_imbalance (hp : ¬p.bracketsMatch = true) :
    ∃ e, p.imbalance? = some e ∧ e.Describes p.toList := by
  rw [bracketsMatch, Option.isNone_iff_eq_none] at hp
  obtain ⟨e, he⟩ := Option.ne_none_iff_exists'.mp hp
  exact ⟨e, he, imbalance?_eq_some_iff.mp he⟩

lemma bracketsMatch_iff_height : p.bracketsMatch = true ↔
    (∀ k ≤ p.size, 0 ≤ height p.toList k) ∧ height p.toList p.size = 0 := by
  rw [bracketsMatch_iff, balanced_iff_height, length_toList]

/-- A sequence that comes below the ground is reported where it first does. -/
lemma imbalance?_of_below (h : ∃ k ≤ p.size, height p.toList k < 0) :
    ∃ index, p.imbalance? = some (.unmatchedEnd index) ∧ FallsAt p.toList index := by
  obtain ⟨k, hk, hneg⟩ := h
  have hp : ¬p.bracketsMatch = true := by
    intro hp
    have hnonneg := (bracketsMatch_iff_height.mp hp).1 k hk
    omega
  obtain ⟨e, he, hd⟩ := exists_imbalance hp
  cases e with
  | unmatchedEnd index => exact ⟨index, he, hd⟩
  | unmatchedBegin index unclosed =>
    have hnonneg := hd.1 k (by rwa [length_toList])
    omega

lemma imbalance?_of_above (h : ∀ k ≤ p.size, 0 ≤ height p.toList k)
    (hp : ¬p.bracketsMatch = true) : ∃ index unclosed,
      p.imbalance? = some (.unmatchedBegin index unclosed) ∧ 0 < unclosed ∧
        height p.toList p.size = unclosed ∧ InnermostOpen p.toList index := by
  obtain ⟨e, he, hd⟩ := exists_imbalance hp
  cases e with
  | unmatchedEnd index =>
    have hnonneg := h (index + 1) (by rw [← length_toList]; exact hd.lt_length)
    have hneg := hd.below
    omega
  | unmatchedBegin index unclosed =>
    obtain ⟨-, hdepth, hpos, hopen⟩ := hd
    refine ⟨index, unclosed, he, hpos, ?_, hopen⟩
    rw [← length_toList, height_length]
    exact hdepth

lemma validate_eq_error_iff {error : Error} :
    p.validate = .error error ↔ ∃ e, p.imbalance? = some e ∧ error = .malformed e := by
  rw [validate]
  cases p.imbalance? <;> simp [eq_comm]

lemma run_of_imbalance {e : Imbalance} (h : p.imbalance? = some e) (settings : Settings)
    (budget : UInt64) : run settings p budget =
      ⟨⟨p.size, budget⟩, #[], some (.refused (.malformed e)),
        .error (.refused (.malformed e))⟩ := by
  rw [run, validate_eq_error_iff.mpr ⟨e, h, rfl⟩]

/-- A run is refused exactly if validation fails, and for the same reason. -/
lemma run_refused_iff {error : Error} (settings : Settings) (budget : UInt64) :
    (run settings p budget).result = .error (.refused error) ↔ p.validate = .error error := by
  cases h : p.imbalance? with
  | some e =>
    rw [run_of_imbalance h, validate, h]
    simp
  | none =>
    have hp : p.bracketsMatch = true := by rw [bracketsMatch, h, Option.isNone_none]
    rw [validate_eq_ok hp]
    obtain ⟨outcome, hr⟩ | ⟨hr, -⟩ := run_result_of_match hp settings budget <;> simp [hr]

/-- Brackets match if the height is never below zero and zero at the end. Otherwise the imbalance
reported is the first place below zero or, if there is none, the number of open loops and the
innermost of them, and validation and every run give that imbalance as their error; of such a run
there is nothing but the record that it was refused. -/
theorem validation_exact (p : Program) :
    (p.bracketsMatch = true ↔
      (∀ k ≤ p.size, 0 ≤ height p.toList k) ∧ height p.toList p.size = 0) ∧
    ((∃ k ≤ p.size, height p.toList k < 0) → ∃ index,
      p.imbalance? = some (.unmatchedEnd index) ∧ index < p.size ∧
        height p.toList (index + 1) < 0 ∧ ∀ j < index, 0 ≤ height p.toList (j + 1)) ∧
    ((∀ k ≤ p.size, 0 ≤ height p.toList k) → p.bracketsMatch = false → ∃ index unclosed,
      p.imbalance? = some (.unmatchedBegin index unclosed) ∧ 0 < unclosed ∧
        height p.toList p.size = unclosed ∧ OpenAt p.toList index ∧
          ∀ j, OpenAt p.toList j → j ≤ index) ∧
    (∀ error, p.validate = .error error ↔ ∃ e, p.imbalance? = some e ∧ error = .malformed e) ∧
    ∀ settings budget,
      (∀ error, (run settings p budget).result = .error (.refused error) ↔
        p.validate = .error error) ∧
      (∀ e, p.imbalance? = some e → run settings p budget =
        ⟨⟨p.size, budget⟩, #[], some (.refused (.malformed e)),
          .error (.refused (.malformed e))⟩) ∧
      (p.bracketsMatch = true → budget < State.maxSteps →
        ∃ outcome, (run settings p budget).result = .ok outcome) := by
  refine ⟨bracketsMatch_iff_height, ?_, ?_, fun error => validate_eq_error_iff, ?_⟩
  · intro h
    obtain ⟨index, he, hfall⟩ := imbalance?_of_below h
    refine ⟨index, he, ?_, hfall.below, fun j hj => hfall.nonneg (j + 1) hj⟩
    rw [← length_toList]
    exact hfall.lt_length
  · intro h hp
    obtain ⟨index, unclosed, he, hpos, hheight, hopen⟩ := imbalance?_of_above h (by simp [hp])
    exact ⟨index, unclosed, he, hpos, hheight, hopen.openAt, hopen.greatest⟩
  · intro settings budget
    refine ⟨fun error => run_refused_iff settings budget,
      fun e he => run_of_imbalance he settings budget, fun hp hbudget => ?_⟩
    exact (run_result_of_match hp settings budget).resolve_right fun h => h.2 hbudget

theorem validation_exact_open :
    ∃ index unclosed, (Program.ofList [.loopBegin, .loopBegin, .loopEnd]).imbalance? =
      some (.unmatchedBegin index unclosed) ∧ 0 < unclosed := by
  obtain ⟨index, unclosed, he, hpos, -⟩ :=
    (validation_exact (Program.ofList [.loopBegin, .loopBegin, .loopEnd])).2.2.1 (by decide)
      (by decide)
  exact ⟨index, unclosed, he, hpos⟩

end TapeMachine.Program
