import TapeMachine.Proofs.Partners
import TapeMachine.Structured

/-!
# Flattening of structured code

Structured code and balanced sequences are two ways to write the same thing. A sequence that begins
with a loop is the loop begin, what stands between it and its partner, the partner, and the rest
(`Paired.split`); both parts are balanced and shorter, so code for them is found by recursion on the
length, and the partner being the only one, there is no choice in it. Code that is a part of a
program keeps its pairs there (`Code.Written`).
-/

namespace TapeMachine

variable {is js : List Instr} {p : Program} {k start finish : Nat}

/-! ### Parts of a balanced sequence -/

lemma Balanced.drop (h : Balanced is) (hk : k ≤ is.length) (hground : height is k = 0) :
    Balanced (is.drop k) := by
  rw [balanced_iff_height] at h ⊢
  have hshift : ∀ j, height (is.drop k) j = height is (k + j) := by
    intro j
    rw [height, height, List.take_add, depth_append]
    change depth _ = height is k + depth _
    rw [hground, Int.zero_add]
  have hlength : k + (is.drop k).length = is.length := by
    rw [List.length_drop]
    omega
  refine ⟨fun j hj => ?_, ?_⟩
  · rw [hshift]
    exact h.1 (k + j) (by omega)
  · rw [hshift, hlength]
    exact h.2

/-- A sequence around a pair: what comes before, the loop with what it holds, and the rest. -/
lemma Paired.split (h : Paired is start finish) :
    is = is.take start ++ .loopBegin :: between is start finish ++
      .loopEnd :: is.drop (finish + 1) := by
  have hfinish := h.finish_lt_length
  have hstart : start < (is.take finish).length := by
    rw [List.length_take]
    have := h.before
    omega
  have hbegin : (is.take finish)[start] = .loopBegin := by
    rw [List.getElem_take]
    exact (List.getElem?_eq_some_iff.mp h.begins).2
  have hend : is[finish] = .loopEnd := (List.getElem?_eq_some_iff.mp h.ends).2
  have houter : is = is.take finish ++ .loopEnd :: is.drop (finish + 1) := by
    rw [← hend, ← List.drop_eq_getElem_cons hfinish, List.take_append_drop]
  have hinner : is.take finish = is.take start ++ .loopBegin :: between is start finish := by
    have htake : is.take start = (is.take finish).take start := by
      rw [List.take_take, Nat.min_eq_left h.before.le]
    rw [between, htake, ← hbegin, ← List.drop_eq_getElem_cons hstart, List.take_append_drop]
  rw [← hinner]
  exact houter

lemma paired_append (is js : List Instr) {body : List Instr} (h : Balanced body) :
    Paired (is ++ .loopBegin :: body ++ .loopEnd :: js) is.length
      (is.length + 1 + body.length) := by
  refine ⟨?_, ?_, by omega, ?_⟩
  · simp
  · rw [List.getElem?_append_right (by simp; omega)]
    simp [Nat.add_comm, Nat.add_left_comm]
  · have hbetween : between (is ++ .loopBegin :: body ++ .loopEnd :: js) is.length
        (is.length + 1 + body.length) = body := by
      have hlength : is.length + 1 + body.length = (is ++ .loopBegin :: body).length := by
        rw [List.length_append, List.length_cons]
        omega
      rw [between, hlength, List.take_left, List.drop_append]
      simp
    rw [hbetween]
    exact h

namespace Code

theorem flatten_injective : Function.Injective flatten := by
  intro code
  induction code with
  | done =>
    intro code h
    cases code with
    | done => rfl
    | act action rest => cases h
    | loop body rest => cases h
  | act action rest ih =>
    intro code h
    cases code with
    | done => cases h
    | act action' rest' =>
      obtain ⟨haction, hrest⟩ := List.cons.inj h
      rw [Instr.act.inj haction, ih hrest]
    | loop body rest' => cases h
  | loop body rest ihb ihr =>
    intro code h
    cases code with
    | done => cases h
    | act action rest' => cases h
    | loop body' rest' =>
      -- both loop ends are the partner of the first instruction
      have hpair := paired_append [] rest.flatten body.balanced_flatten
      have hpair' := paired_append [] rest'.flatten body'.balanced_flatten
      have hsame : [] ++ .loopBegin :: body.flatten ++ .loopEnd :: rest.flatten =
          [] ++ .loopBegin :: body'.flatten ++ .loopEnd :: rest'.flatten := h
      rw [← hsame] at hpair'
      have hlength := hpair.finish_unique hpair'
      obtain ⟨hbody, hrest⟩ := List.append_inj h (by simp only [List.length_cons]; omega)
      rw [ihb (List.cons.inj hbody).2, ihr (List.cons.inj hrest).2]

theorem exists_flatten (h : Balanced is) : ∃ code : Code, code.flatten = is := by
  induction hn : is.length using Nat.strong_induction_on generalizing is with
  | _ n ih =>
    cases is with
    | nil => exact ⟨done, rfl⟩
    | cons i js =>
      have hground : height (i :: js) 1 = i.rise := by simp [height]
      cases i with
      | act action =>
        obtain ⟨rest, hrest⟩ := ih js.length (by rw [← hn]; exact Nat.lt_succ_self _)
          (h.drop (k := 1) (by simp) hground) rfl
        exact ⟨act action rest, congrArg _ hrest⟩
      | loopBegin =>
        have hp : (Program.ofList (.loopBegin :: js)).bracketsMatch = true := by
          rw [Program.bracketsMatch_iff]
          exact h
        obtain ⟨finish, hpair⟩ := Program.exists_paired_of_loopBegin (i := 0) hp rfl
        change Paired (.loopBegin :: js) 0 finish at hpair
        have hfinish := hpair.finish_lt_length
        have hsplit := hpair.split
        obtain ⟨body, hbody⟩ := ih _ (by rw [← hn, length_between hfinish.le]; omega)
          hpair.balanced rfl
        obtain ⟨rest, hrest⟩ := ih _ (by rw [← hn, List.length_drop]; omega)
          (h.drop hfinish (by rw [hpair.height_finish, height_zero])) rfl
        refine ⟨loop body rest, ?_⟩
        rw [flatten, hbody, hrest]
        exact hsplit.symm
      | loopEnd =>
        have hnonneg := (balanced_iff_height.mp h).1 1 (by simp)
        rw [hground, Instr.rise] at hnonneg
        omega

/-! ### Code as a part of a program -/

/-- The code is written in the program from the place `start` on. -/
def Written (p : Program) (start : Nat) (code : Code) : Prop :=
  ∃ is js, p.toList = is ++ code.flatten ++ js ∧ is.length = start

lemma written_ofList (code : Code) : Written (.ofList code.flatten) 0 code :=
  ⟨[], [], by simp [Program.toList], rfl⟩

/-- Behind how many instructions code that is written at `start` ends. -/
def finishFrom (start : Nat) (code : Code) : Nat := start + code.flatten.length

namespace Written

variable {action : Action} {body rest code : Code}

lemma act_eq (h : Written p start (.act action rest)) : p.instrs[start]? = some (.act action) := by
  obtain ⟨is, js, heq, rfl⟩ := h
  rw [← Program.getElem?_toList, heq]
  simp [flatten]

lemma act_rest (h : Written p start (.act action rest)) : Written p (start + 1) rest := by
  obtain ⟨is, js, heq, rfl⟩ := h
  exact ⟨is ++ [.act action], js, by simp [heq, flatten], by simp⟩

lemma loop_paired (h : Written p start (.loop body rest)) :
    Paired p.toList start (finishFrom (start + 1) body) := by
  obtain ⟨is, js, heq, rfl⟩ := h
  have hpair := paired_append is (rest.flatten ++ js) body.balanced_flatten
  rw [heq]
  simpa [flatten, finishFrom] using hpair

lemma loop_body (h : Written p start (.loop body rest)) : Written p (start + 1) body := by
  obtain ⟨is, js, heq, rfl⟩ := h
  exact ⟨is ++ [.loopBegin], .loopEnd :: rest.flatten ++ js, by simp [heq, flatten], by simp⟩

lemma loop_rest (h : Written p start (.loop body rest)) :
    Written p (finishFrom (start + 1) body + 1) rest := by
  obtain ⟨is, js, heq, rfl⟩ := h
  refine ⟨is ++ .loopBegin :: body.flatten ++ [.loopEnd], js, by simp [heq, flatten], ?_⟩
  simp [finishFrom]
  omega

end Written

end Code

end TapeMachine
