import Mathlib.Data.List.Induction
import TapeMachine.Brackets.Pairing
import TapeMachine.Proofs.Height

/-!
# What the pairing pass knows

`Tracks is p` says of the pairing `p` what it must know after it has read `is`: the sequence has
never been below the ground, the pending loops are those that are still open, each at the height
that is the number of loops around it, and the table holds exactly the pairs. Each instruction
that can be read keeps this, so it holds of every pairing that is reached. The pass gives up at
the first place where the sequence comes below the ground. The main statements are
`pairBrackets_isOk_iff` and `pairBrackets_eq_error_iff`.
-/

namespace TapeMachine

/-- The first place where the sequence comes below the ground is behind instruction `k`. -/
structure FallsAt (is : List Instr) (k : Nat) : Prop where
  lt_length : k < is.length
  below : height is (k + 1) < 0
  nonneg : ∀ j ≤ k, 0 ≤ height is j

/-- The innermost loop that is still open at the end begins at `start`. -/
structure InnermostOpen (is : List Instr) (start : Nat) : Prop where
  openAt : OpenAt is start
  greatest : ∀ j, OpenAt is j → j ≤ start

/-- What an imbalance says about a sequence. -/
def Imbalance.Describes (is : List Instr) : Imbalance → Prop
  | unmatchedEnd index => FallsAt is index
  | unmatchedBegin index unclosed =>
    (∀ k ≤ is.length, 0 ≤ height is k) ∧ depth is = unclosed ∧ 0 < unclosed ∧
      InnermostOpen is index

/-- Open loops from the innermost out, each with as many loops around it as its height says. -/
def Stacked (is : List Instr) : List Nat → Prop
  | [] => True
  | start :: outer => OpenAt is start ∧ height is start = outer.length ∧ Stacked is outer

variable {is js : List Instr} {i : Instr} {k start finish : Nat} {outer pending : List Nat}

lemma OpenAt.lt_length (h : OpenAt is start) : start < is.length :=
  lt_length_of_getElem? h.begins

lemma le_length_concat_cases (h : k ≤ (is ++ [i]).length) : k ≤ is.length ∨ k = is.length + 1 := by
  rw [List.length_append, List.length_singleton] at h
  omega

lemma OpenAt.concat (h : OpenAt is start) (hi : height is start < depth is + i.rise) :
    OpenAt (is ++ [i]) start := by
  have hlt := h.lt_length
  refine ⟨?_, fun k hk hkl => ?_⟩
  · rw [List.getElem?_append_left hlt]
    exact h.begins
  · rw [height_append_left _ hlt.le]
    obtain hkl' | rfl := le_length_concat_cases hkl
    · rw [height_append_left _ hkl']
      exact h.above k hk hkl'
    · rw [height_concat, height_length]
      exact hi

lemma openAt_concat_loopBegin (is : List Instr) : OpenAt (is ++ [.loopBegin]) is.length := by
  refine ⟨by simp, fun k hk hkl => ?_⟩
  obtain hkl' | rfl := le_length_concat_cases hkl
  · omega
  · rw [height_concat, height_append_left _ (Nat.le_refl _)]
    exact Int.lt_succ _

lemma Stacked.concat (h : Stacked is pending) (hi : (pending.length : Int) ≤ depth is + i.rise) :
    Stacked (is ++ [i]) pending := by
  induction pending with
  | nil => trivial
  | cons start outer ih =>
    obtain ⟨hopen, hheight, houter⟩ := h
    simp only [List.length_cons] at hi
    refine ⟨hopen.concat (by omega), ?_, ih houter (by omega)⟩
    rw [height_append_left _ hopen.lt_length.le]
    exact hheight

lemma Stacked.innermostOpen (h : Stacked is (start :: outer))
    (hd : depth is = ((start :: outer).length : Nat)) : InnermostOpen is start := by
  obtain ⟨hopen, hheight, -⟩ := h
  refine ⟨hopen, fun j hj => ?_⟩
  by_contra hlt
  -- a later open loop would have to lie above `start` and below the end, and that is one step
  have h₁ := hopen.above j (by omega) hj.lt_length.le
  have h₂ := hj.above is.length hj.lt_length (Nat.le_refl _)
  rw [height_length, hd] at h₂
  simp only [List.length_cons] at h₂
  omega

lemma paired_concat_loopEnd (h : OpenAt is start) (hd : depth is = height is start + 1) :
    Paired (is ++ [.loopEnd]) start is.length := by
  have hlt := h.lt_length
  refine paired_iff_height.mpr ⟨?_, by simp, hlt, fun k hk hkl => ?_, ?_⟩
  · rw [List.getElem?_append_left hlt]
    exact h.begins
  · rw [height_append_left _ hlt.le, height_append_left _ hkl]
    exact h.above k hk hkl
  · rw [height_concat, height_append_left _ hlt.le, height_length, hd]
    simp only [Instr.rise]
    omega

/-- A pair of a sequence with one more instruction is an old one, or it ends with the new one. -/
lemma Paired.of_concat (h : Paired (is ++ [i]) start finish) :
    Paired is start finish ∨ i = .loopEnd ∧ finish = is.length := by
  have hf := h.finish_lt_length
  simp only [List.length_append, List.length_singleton] at hf
  by_cases hlt : finish < is.length
  · exact Or.inl (h.of_append hlt)
  · have heq : finish = is.length := by omega
    have hend := h.ends
    rw [heq, List.getElem?_concat_length, Option.some.injEq] at hend
    exact Or.inr ⟨hend, heq⟩

lemma paired_concat_iff (hi : i ≠ .loopEnd) :
    Paired (is ++ [i]) start finish ↔ Paired is start finish := by
  constructor
  · intro h
    exact h.of_concat.resolve_right fun hend => hi hend.1
  · exact fun h => h.append [i]

namespace Partners

variable {partners : Partners} {index : Nat}

lemma partner?_push_none :
    Partners.partner? (partners.push none) index = partners.partner? index := by
  rw [partner?, partner?, Array.getElem?_push]
  by_cases h : index = partners.size
  · simp [h]
  · rw [if_neg h]

/-- The table after a loop end: the two brackets have each other, all else is as it was. -/
lemma partner?_close (hs : start < partners.size) :
    Partners.partner?
        ((partners.push (some start)).setIfInBounds start (some partners.size)) index =
      if index = start then some partners.size
      else if index = partners.size then some start else partners.partner? index := by
  rw [partner?, partner?, Array.getElem?_setIfInBounds, Array.getElem?_push]
  by_cases h₁ : index = start
  · have hlt : start < (partners.push (some start)).size := by
      rw [Array.size_push]
      omega
    rw [if_pos h₁.symm, if_pos h₁, if_pos hlt]
    rfl
  · rw [if_neg (Ne.symm h₁), if_neg h₁]
    by_cases h₂ : index = partners.size
    · rw [if_pos h₂, if_pos h₂]
      rfl
    · rw [if_neg h₂, if_neg h₂]

end Partners

/-! ### Reading keeps track -/

/-- What a pairing knows after it has read `is`. -/
structure Tracks (is : List Instr) (p : Pairing) : Prop where
  size : p.partners.size = is.length
  nonneg : ∀ k ≤ is.length, 0 ≤ height is k
  depth_eq : depth is = p.pending.length
  stacked : Stacked is p.pending
  ended : ∀ finish, is[finish]? = some .loopEnd → ∃ start, Paired is start finish
  partner : ∀ index other,
    p.partners.partner? index = some other ↔ Paired is index other ∨ Paired is other index

lemma nonneg_concat (h : ∀ k ≤ is.length, 0 ≤ height is k) (hi : 0 ≤ depth is + i.rise) :
    ∀ k ≤ (is ++ [i]).length, 0 ≤ height (is ++ [i]) k := by
  intro k hk
  obtain hk' | rfl := le_length_concat_cases hk
  · rw [height_append_left _ hk']
    exact h k hk'
  · rw [height_concat, height_length]
    exact hi

lemma getElem?_concat_cases {x : Instr} (h : (is ++ [i])[k]? = some x) :
    is[k]? = some x ∨ k = is.length ∧ i = x := by
  have hk := lt_length_of_getElem? h
  simp only [List.length_append, List.length_singleton] at hk
  by_cases hlt : k < is.length
  · rw [List.getElem?_append_left hlt] at h
    exact Or.inl h
  · have heq : k = is.length := by omega
    rw [heq, List.getElem?_concat_length, Option.some.injEq] at h
    exact Or.inr ⟨heq, h⟩

/-- In every sequence, balanced or not, a loop is closed by its partner or open at the end. -/
theorem openAt_or_paired (h : is[start]? = some .loopBegin) :
    OpenAt is start ∨ ∃ finish, Paired is start finish := by
  induction is using List.reverseRecOn with
  | nil => simp at h
  | append_singleton is i ih =>
    obtain h | ⟨rfl, rfl⟩ := getElem?_concat_cases h
    · obtain hopen | ⟨finish, hp⟩ := ih h
      · have hlast := hopen.above is.length hopen.lt_length (Nat.le_refl _)
        rw [height_length] at hlast
        by_cases hi : height is start < depth is + i.rise
        · exact Or.inl (hopen.concat hi)
        · -- only a loop end goes down, and by one, so it meets the height of `start` exactly
          cases i <;> simp only [Instr.rise] at hi
          case loopEnd => exact Or.inr ⟨_, paired_concat_loopEnd hopen (by omega)⟩
          all_goals omega
      · exact Or.inr ⟨finish, hp.append _⟩
    · exact Or.inl (openAt_concat_loopBegin is)

namespace Tracks

variable {partners : Partners} {p q : Pairing}

lemma empty : Tracks [] .empty where
  size := rfl
  nonneg := by
    intro k hk
    obtain rfl := Nat.le_zero.mp hk
    exact Int.le_of_eq (height_zero []).symm
  depth_eq := rfl
  stacked := trivial
  ended := by simp
  partner := by
    intro index other
    have hnone : ∀ start finish, ¬Paired [] start finish := fun _ _ h => by simpa using h.begins
    simp [Pairing.empty, Partners.partner?, hnone]

lemma ended_concat (h : Tracks is p) (hi : i ≠ .loopEnd)
    (hf : (is ++ [i])[finish]? = some .loopEnd) : ∃ start, Paired (is ++ [i]) start finish := by
  obtain hf | ⟨-, heq⟩ := getElem?_concat_cases hf
  · exact (h.ended finish hf).imp fun _ hp => hp.append _
  · exact absurd heq hi

lemma partner_concat (h : Tracks is p) (hi : i ≠ .loopEnd) (index other : Nat) :
    Partners.partner? (p.partners.push none) index = some other ↔
      Paired (is ++ [i]) index other ∨ Paired (is ++ [i]) other index := by
  rw [Partners.partner?_push_none, paired_concat_iff hi, paired_concat_iff hi]
  exact h.partner index other

lemma act (h : Tracks is ⟨pending, partners⟩) (action : Action) :
    Tracks (is ++ [.act action]) ⟨pending, partners.push none⟩ where
  size := by simp [h.size]
  nonneg := nonneg_concat h.nonneg (by simp [Instr.rise, h.depth_eq])
  depth_eq := by simpa [Instr.rise] using h.depth_eq
  stacked := h.stacked.concat (by simp [Instr.rise, h.depth_eq])
  ended := fun _ => h.ended_concat (by simp)
  partner := h.partner_concat (by simp)

lemma loopBegin (h : Tracks is ⟨pending, partners⟩) :
    Tracks (is ++ [.loopBegin]) ⟨partners.size :: pending, partners.push none⟩ where
  size := by simp [h.size]
  nonneg := nonneg_concat h.nonneg (by simp [Instr.rise, h.depth_eq]; omega)
  depth_eq := by simpa [Instr.rise] using h.depth_eq
  stacked := by
    rw [h.size]
    refine ⟨openAt_concat_loopBegin is, ?_, h.stacked.concat ?_⟩
    · rw [height_append_left _ (Nat.le_refl _), height_length]
      exact h.depth_eq
    · simp only [Instr.rise, h.depth_eq]
      omega
  ended := fun _ => h.ended_concat (by simp)
  partner := h.partner_concat (by simp)

lemma partner_loopEnd (h : Tracks is p) (hnew : Paired (is ++ [.loopEnd]) start is.length)
    (index other : Nat) :
    Partners.partner? ((p.partners.push (some start)).setIfInBounds start (some p.partners.size))
        index = some other ↔
      Paired (is ++ [.loopEnd]) index other ∨ Paired (is ++ [.loopEnd]) other index := by
  have hlt := hnew.before
  rw [Partners.partner?_close (by rw [h.size]; exact hlt), h.size]
  by_cases h₁ : index = start
  · rw [if_pos h₁, h₁, Option.some.injEq]
    constructor
    · rintro rfl
      exact Or.inl hnew
    · rintro (hp | hp)
      · exact hnew.finish_unique hp
      · exact absurd rfl (hnew.start_ne_finish hp)
  · rw [if_neg h₁]
    by_cases h₂ : index = is.length
    · rw [if_pos h₂, h₂, Option.some.injEq]
      constructor
      · rintro rfl
        exact Or.inr hnew
      · rintro (hp | hp)
        · exact absurd rfl (hp.start_ne_finish hnew)
        · exact hnew.start_unique hp
    · rw [if_neg h₂, h.partner]
      constructor
      · exact Or.imp (fun hp => hp.append _) (fun hp => hp.append _)
      · rintro (hp | hp)
        · obtain hp | ⟨-, rfl⟩ := hp.of_concat
          · exact Or.inl hp
          · exact absurd (hp.start_unique hnew) h₁
        · obtain hp | ⟨-, heq⟩ := hp.of_concat
          · exact Or.inr hp
          · exact absurd heq h₂

lemma loopEnd (h : Tracks is ⟨start :: outer, partners⟩) :
    Tracks (is ++ [.loopEnd])
      ⟨outer, (partners.push (some start)).setIfInBounds start (some partners.size)⟩ := by
  obtain ⟨hopen, hheight, houter⟩ := h.stacked
  have hsize : partners.size = is.length := h.size
  have hdepth : depth is = height is start + 1 := by
    rw [hheight, h.depth_eq]
    rfl
  have hnew := paired_concat_loopEnd hopen hdepth
  refine ⟨by simp [hsize], nonneg_concat h.nonneg ?_, ?_, houter.concat ?_, ?_,
    h.partner_loopEnd hnew⟩
  · simp only [Instr.rise]
    omega
  · simp only [depth_append, depth_cons, depth_nil, Instr.rise]
    omega
  · simp only [Instr.rise]
    omega
  · intro finish hf
    obtain hf | ⟨rfl, -⟩ := getElem?_concat_cases hf
    · exact (h.ended finish hf).imp fun _ hp => hp.append _
    · exact ⟨start, hnew⟩

theorem read (h : Tracks is p) (hr : p.read i = .ok q) : Tracks (is ++ [i]) q := by
  obtain ⟨pending, partners⟩ := p
  cases i with
  | act action =>
    cases hr
    exact h.act action
  | loopBegin =>
    cases hr
    exact h.loopBegin
  | loopEnd =>
    cases pending with
    | nil => cases hr
    | cons start outer =>
      cases hr
      exact h.loopEnd

theorem readAll (h : Tracks is p) (hr : p.readAll js = .ok q) : Tracks (is ++ js) q := by
  induction js generalizing is p with
  | nil =>
    cases hr
    simpa using h
  | cons j js ih =>
    rw [Pairing.readAll_cons] at hr
    cases hj : p.read j with
    | error e =>
      rw [hj] at hr
      cases hr
    | ok p' =>
      rw [hj] at hr
      have hrest := ih (h.read hj) hr
      rwa [List.append_assoc, List.singleton_append] at hrest

lemma read_error {e : Imbalance} (h : Tracks is p) (hr : p.read i = .error e) (js : List Instr) :
    e = .unmatchedEnd is.length ∧ FallsAt (is ++ i :: js) is.length := by
  obtain ⟨pending, partners⟩ := p
  cases i with
  | act action => cases hr
  | loopBegin => cases hr
  | loopEnd =>
    cases pending with
    | cons start outer => cases hr
    | nil =>
      have hdepth : depth is = 0 := h.depth_eq
      have hsize : partners.size = is.length := h.size
      cases hr
      refine ⟨by rw [hsize], by simp, ?_, fun k hk => ?_⟩
      · rw [height_append_right, hdepth]
        simp [height, Instr.rise]
      · rw [height_append_left _ hk]
        exact h.nonneg k hk

theorem readAll_error {e : Imbalance} (h : Tracks is p) (hr : p.readAll js = .error e) :
    e.Describes (is ++ js) := by
  induction js generalizing is p with
  | nil => cases hr
  | cons j js ih =>
    rw [Pairing.readAll_cons] at hr
    cases hj : p.read j with
    | error e' =>
      rw [hj] at hr
      cases hr
      obtain ⟨rfl, hfall⟩ := h.read_error hj js
      exact hfall
    | ok p' =>
      rw [hj] at hr
      have hrest := ih (h.read hj) hr
      rwa [List.append_assoc, List.singleton_append] at hrest

end Tracks

/-! ### The outcome of the pass -/

lemma tracks_of_pairBrackets {partners : Partners} (h : pairBrackets is = .ok partners) :
    Tracks is ⟨[], partners⟩ := by
  unfold pairBrackets at h
  split at h
  · next p hr =>
    have ht : Tracks is p := Tracks.empty.readAll hr
    obtain ⟨pending, partners'⟩ := p
    cases pending with
    | nil =>
      cases h
      exact ht
    | cons start outer => cases h
  · cases h

lemma describes_of_pairBrackets {e : Imbalance} (h : pairBrackets is = .error e) :
    e.Describes is := by
  unfold pairBrackets at h
  split at h
  · next p hr =>
    have ht : Tracks is p := Tracks.empty.readAll hr
    obtain ⟨pending, partners⟩ := p
    cases pending with
    | nil => cases h
    | cons start outer =>
      cases h
      exact ⟨ht.nonneg, ht.depth_eq, Nat.succ_pos _, ht.stacked.innermostOpen ht.depth_eq⟩
  · next e' hr =>
    cases h
    exact Tracks.empty.readAll_error hr

lemma Tracks.balanced {partners : Partners} (h : Tracks is ⟨[], partners⟩) : Balanced is :=
  ⟨h.nonneg, h.depth_eq⟩

lemma Imbalance.Describes.not_balanced {e : Imbalance} (h : e.Describes is) : ¬Balanced is := by
  rintro ⟨hnonneg, hzero⟩
  cases e with
  | unmatchedEnd index =>
    have h₁ : 0 ≤ height is (index + 1) := hnonneg (index + 1) h.lt_length
    have h₂ := h.below
    omega
  | unmatchedBegin index unclosed =>
    obtain ⟨-, hdepth, hpos, -⟩ := h
    omega

lemma Imbalance.Describes.unique {e e' : Imbalance} (h : e.Describes is) (h' : e'.Describes is) :
    e = e' := by
  cases e with
  | unmatchedEnd k =>
    cases e' with
    | unmatchedEnd k' =>
      congr 1
      rcases Nat.lt_trichotomy k k' with hlt | heq | hlt
      · exact absurd (h'.nonneg (k + 1) hlt) (Int.not_le.mpr h.below)
      · exact heq
      · exact absurd (h.nonneg (k' + 1) hlt) (Int.not_le.mpr h'.below)
    | unmatchedBegin k' n' => exact absurd (h'.1 (k + 1) h.lt_length) (Int.not_le.mpr h.below)
  | unmatchedBegin k n =>
    cases e' with
    | unmatchedEnd k' => exact absurd (h.1 (k' + 1) h'.lt_length) (Int.not_le.mpr h'.below)
    | unmatchedBegin k' n' =>
      obtain ⟨-, hn, -, hk⟩ := h
      obtain ⟨-, hn', -, hk'⟩ := h'
      have h₁ := hk.greatest k' hk'.openAt
      have h₂ := hk'.greatest k hk.openAt
      congr 1 <;> omega

theorem pairBrackets_isOk_iff : (∃ partners, pairBrackets is = .ok partners) ↔ Balanced is := by
  constructor
  · rintro ⟨partners, h⟩
    exact (tracks_of_pairBrackets h).balanced
  · intro hb
    cases h : pairBrackets is with
    | ok partners => exact ⟨partners, rfl⟩
    | error e => exact absurd hb (describes_of_pairBrackets h).not_balanced

/-- The pass reports the one imbalance that describes the sequence. -/
theorem pairBrackets_eq_error_iff {e : Imbalance} :
    pairBrackets is = .error e ↔ e.Describes is := by
  constructor
  · exact describes_of_pairBrackets
  · intro hd
    cases h : pairBrackets is with
    | ok partners => exact absurd (tracks_of_pairBrackets h).balanced hd.not_balanced
    | error e' => rw [(describes_of_pairBrackets h).unique hd]

end TapeMachine
