import Mathlib.Data.Int.ModEq
import Mathlib.Data.List.Induction
import TapeMachine.Proofs.Move

/-!
# The tape under any use

A tape can be read, written and have a pointer landed on it, in any order and with whatever numbers,
and it remembers what was written (`Tape.used_sound`). The cells beyond its end count as zero here
(`Tape.byteAt`), so that growing the tape changes no cell, and what the cells hold is told by the
uses that wrote to them: by the last one, of those that found the cell on the tape (`Tape.written`).
Pointers are any integers, and so all signed numbers of 64 bits.
-/

namespace TapeMachine.Tape

/-- What can be done with a tape. -/
inductive Use where
  | get (index : Nat)
  | set (index : Nat) (value : UInt8)
  | land (pointer : Int)
  deriving DecidableEq

/-- What comes of a use. -/
inductive Answer where
  | byte (value : UInt8)
  | done
  | pointer (pointer : Int)
  | failed (fault : Fault)
  deriving DecidableEq

/-- The tape after a use, and the answer. A use that fails leaves the tape as it is. -/
def use (t : Tape) : Use → Tape × Answer
  | .get index =>
    match t.get index with
    | .ok value => (t, .byte value)
    | .error fault => (t, .failed fault)
  | .set index value =>
    match t.set index value with
    | .ok t' => (t', .done)
    | .error fault => (t, .failed fault)
  | .land pointer => ((t.land pointer).tape, .pointer (t.land pointer).pointer)

/-- A fresh tape after some uses, from the first to the last, and what came of each. -/
def used (uses : List Use) : Tape × List (Use × Answer) :=
  uses.foldl (fun r u => ((r.1.use u).1, r.2 ++ [(u, (r.1.use u).2)])) (fresh, [])

/-- What is in the cell at `index` after a use, if `last` was before. -/
def note (index : Nat) (last : UInt8) : Use × Answer → UInt8
  | (.set index' value, .done) => if index = index' then value else last
  | _ => last

/-- The value of the last write to the cell at `index`, of those that were done; zero if there was
none. -/
def written (index : Nat) (history : List (Use × Answer)) : UInt8 :=
  history.foldl (note index) 0

/-- The byte in a cell, with zeros beyond the end. -/
def byteAt (t : Tape) (index : Nat) : UInt8 := t.cells[index]?.getD 0

variable {t t' : Tape} {u : Use} {uses : List Use} {index : Nat} {value : UInt8} {pointer : Int}

lemma get_eq_byteAt (h : index < t.size) : t.get index = .ok (t.byteAt index) := by
  have hlt : index < t.cells.size := h
  rw [t.get_of_lt hlt, byteAt, Array.getElem?_eq_getElem hlt]
  rfl

lemma get_of_size_le (h : t.size ≤ index) :
    t.get index = .error (.indexOutOfBounds index t.size) :=
  dif_neg (Nat.not_lt.mpr h)

lemma set_of_size_le (h : t.size ≤ index) (value : UInt8) :
    t.set index value = .error (.indexOutOfBounds index t.size) :=
  dif_neg (Nat.not_lt.mpr h)

/-! ### One use -/

@[simp] lemma byteAt_fresh (index : Nat) : fresh.byteAt index = 0 := by
  cases index <;> rfl

@[simp] lemma byteAt_grow (t : Tape) (index : Nat) : t.grow.byteAt index = t.byteAt index := by
  rw [byteAt, byteAt, grow, Array.getElem?_push]
  by_cases h : index = t.cells.size
  · rw [if_pos h, h, Array.getElem?_eq_none (Nat.le_refl _)]
    rfl
  · rw [if_neg h]

lemma byteAt_set (h : t.set index value = .ok t') (index' : Nat) :
    t'.byteAt index' = if index' = index then value else t.byteAt index' := by
  by_cases heq : index' = index
  · rw [if_pos heq, heq]
    have hsize : index < t'.size := by
      unfold set at h
      split at h
      · next hlt =>
        cases h
        rw [size, Array.size_set]
        exact hlt
      · cases h
    have hget := get_set_self h
    rw [get_eq_byteAt hsize, Except.ok.injEq] at hget
    exact hget
  · rw [if_neg heq]
    unfold set at h
    split at h
    · cases h
      rw [byteAt, byteAt, Array.getElem?_set, if_neg (Ne.symm heq)]
    · cases h

lemma land_tape_cases (t : Tape) (pointer : Int) :
    (pointer < t.size ∧ (t.land pointer).tape = t) ∨
      ((t.size : Int) ≤ pointer ∧ (t.land pointer).tape = t.grow) := by
  rcases lt_or_ge pointer (t.size : Int) with hlt | hpast
  · obtain ⟨_, hland⟩ := t.land_of_lt hlt
    exact Or.inl ⟨hlt, by rw [hland]⟩
  · exact Or.inr ⟨hpast, by rw [t.land_of_le hpast]⟩

lemma byteAt_land (t : Tape) (pointer : Int) (index : Nat) :
    (t.land pointer).tape.byteAt index = t.byteAt index := by
  obtain ⟨-, h⟩ | ⟨-, h⟩ := t.land_tape_cases pointer
  · rw [h]
  · rw [h, byteAt_grow]

lemma size_use_cases (t : Tape) (u : Use) :
    ((t.use u).1.size = t.size ∧ ∀ pointer : Int, u = .land pointer → pointer < t.size) ∨
      ∃ pointer : Int, u = .land pointer ∧ (t.size : Int) ≤ pointer ∧ (t.use u).1 = t.grow := by
  cases u with
  | get index =>
    refine Or.inl ⟨?_, fun _ h => by cases h⟩
    rw [use]
    cases t.get index <;> rfl
  | set index value =>
    refine Or.inl ⟨?_, fun _ h => by cases h⟩
    rw [use]
    cases h : t.set index value with
    | error fault => rfl
    | ok t' => exact size_set h
  | land pointer =>
    obtain ⟨hlt, h⟩ | ⟨hle, h⟩ := t.land_tape_cases pointer
    · refine Or.inl ⟨congrArg size h, fun _ heq => ?_⟩
      cases heq
      exact hlt
    · exact Or.inr ⟨pointer, rfl, hle, h⟩

lemma size_le_size_use (t : Tape) (u : Use) : t.size ≤ (t.use u).1.size := by
  obtain ⟨h, -⟩ | ⟨pointer, -, -, h⟩ := t.size_use_cases u
  · exact h.ge
  · rw [h, size_grow]
    exact Nat.le_succ t.size

/-- A use changes the cells as its answer says. -/
lemma byteAt_use (t : Tape) (u : Use) (index : Nat) :
    (t.use u).1.byteAt index = note index (t.byteAt index) (u, (t.use u).2) := by
  cases u with
  | get index' =>
    rw [use]
    cases t.get index' <;> rfl
  | set index' value =>
    rw [use]
    cases h : t.set index' value with
    | error fault => rfl
    | ok t' => exact byteAt_set h index
  | land pointer => exact t.byteAt_land pointer index

/-! ### Many uses -/

lemma used_concat (uses : List Use) (u : Use) : used (uses ++ [u]) =
    (((used uses).1.use u).1, (used uses).2 ++ [(u, ((used uses).1.use u).2)]) := by
  rw [used, List.foldl_append]
  rfl

lemma size_used_pos (uses : List Use) : 1 ≤ (used uses).1.size := by
  induction uses using List.reverseRecOn with
  | nil => exact Nat.le_refl 1
  | append_singleton uses u ih =>
    rw [used_concat]
    exact ih.trans (size_le_size_use _ u)

lemma size_used_le (uses more : List Use) :
    (used uses).1.size ≤ (used (uses ++ more)).1.size := by
  induction more using List.reverseRecOn with
  | nil => rw [List.append_nil]
  | append_singleton more u ih =>
    rw [← List.append_assoc, used_concat]
    exact ih.trans (size_le_size_use _ u)

/-- The cells hold what was written to them last. -/
theorem byteAt_used (uses : List Use) (index : Nat) :
    (used uses).1.byteAt index = written index (used uses).2 := by
  induction uses using List.reverseRecOn with
  | nil => exact byteAt_fresh index
  | append_singleton uses u ih =>
    rw [used_concat]
    dsimp only
    rw [byteAt_use, ih, written, written, List.foldl_append]
    rfl

/-! ### Landings -/

/-- Where a pointer lands, on a tape that has a cell. -/
structure Lands (t : Tape) (pointer : Int) (landing : Landing) : Prop where
  nonneg : 0 ≤ landing.pointer
  lt_size : landing.pointer < landing.tape.size
  cells_kept : ∀ index < t.size, landing.tape.get index = t.get index
  inside : 0 ≤ pointer → pointer < t.size → landing = ⟨t, pointer, false⟩
  past_end : (t.size : Int) ≤ pointer → landing = ⟨⟨t.cells.push 0⟩, t.size, true⟩
  wrapped : pointer < 0 → landing.tape = t ∧ landing.grew = false ∧
    landing.pointer ≡ pointer [ZMOD t.size]
  again : landing.tape.land landing.pointer = ⟨landing.tape, landing.pointer, false⟩

lemma lands_land (ht : 0 < t.size) (pointer : Int) : t.Lands pointer (t.land pointer) where
  nonneg := (land_mem ht pointer).1
  lt_size := (land_mem ht pointer).2
  cells_kept := by
    intro index hlt
    have hlt' : index < (t.land pointer).tape.size :=
      Nat.lt_of_lt_of_le hlt (size_le_size_use t (.land pointer))
    rw [get_eq_byteAt hlt', byteAt_land, get_eq_byteAt hlt]
  inside := t.land_of_mem
  past_end := t.land_of_le
  wrapped := by
    intro hneg
    rw [t.land_of_neg hneg]
    exact ⟨rfl, rfl, Int.mod_modEq pointer t.size⟩
  again := by
    obtain ⟨hnonneg, hlt⟩ := land_mem ht pointer
    exact land_of_mem _ hnonneg hlt

/-- A tape that has been used behaves as a memory that grows: it has a cell, a use changes its
length only by landing a pointer past the end, which adds one zero cell, every pointer lands on a
cell, and a cell that is there holds what was last written to it, or zero. A use of a cell that is
not there fails. -/
structure Sound (history : List (Use × Answer)) (t : Tape) : Prop where
  size_pos : 1 ≤ t.size
  size_le : ∀ u, t.size ≤ (t.use u).1.size
  size_changes_iff : ∀ u, (t.use u).1.size ≠ t.size ↔
    ∃ pointer : Int, u = .land pointer ∧ (t.size : Int) ≤ pointer
  lands : ∀ pointer, t.use (.land pointer) =
    ((t.land pointer).tape, .pointer (t.land pointer).pointer) ∧ t.Lands pointer (t.land pointer)
  get_eq : ∀ index < t.size, t.get index = .ok (written index history)
  get_fails : ∀ index, t.size ≤ index → t.get index = .error (.indexOutOfBounds index t.size) ∧
    t.use (.get index) = (t, .failed (.indexOutOfBounds index t.size))
  set_done : ∀ index < t.size, ∀ value, (t.use (.set index value)).2 = .done
  set_fails : ∀ index, t.size ≤ index → ∀ value,
    t.set index value = .error (.indexOutOfBounds index t.size) ∧
      t.use (.set index value) = (t, .failed (.indexOutOfBounds index t.size))

lemma use_get_of_size_le (h : t.size ≤ index) :
    t.use (.get index) = (t, .failed (.indexOutOfBounds index t.size)) := by
  rw [use, get_of_size_le h]

lemma use_set_of_size_le (h : t.size ≤ index) (value : UInt8) :
    t.use (.set index value) = (t, .failed (.indexOutOfBounds index t.size)) := by
  rw [use, set_of_size_le h]

lemma use_set_of_lt (h : index < t.size) (value : UInt8) :
    (t.use (.set index value)).2 = .done := by
  have hlt : index < t.cells.size := h
  rw [use, set, dif_pos hlt]

lemma size_use_ne_iff (t : Tape) (u : Use) : (t.use u).1.size ≠ t.size ↔
    ∃ pointer : Int, u = .land pointer ∧ (t.size : Int) ≤ pointer := by
  obtain ⟨hsize, hinside⟩ | ⟨pointer, rfl, hle, hgrown⟩ := t.size_use_cases u
  · refine ⟨fun hne => absurd hsize hne, ?_⟩
    rintro ⟨pointer, rfl, hle⟩
    exact absurd hle (Int.not_le.mpr (hinside pointer rfl))
  · refine ⟨fun _ => ⟨pointer, rfl, hle⟩, fun _ => ?_⟩
    rw [hgrown, size_grow]
    exact Nat.succ_ne_self t.size

/-- After any uses the tape is sound, and no further ones make it shorter. -/
theorem used_sound (uses : List Use) : Sound (used uses).2 (used uses).1 ∧
    ∀ more, (used uses).1.size ≤ (used (uses ++ more)).1.size := by
  have hpos := size_used_pos uses
  refine ⟨⟨hpos, size_le_size_use _, size_use_ne_iff _, fun pointer => ⟨rfl, lands_land hpos _⟩,
    fun index h => ?_, fun index h => ⟨get_of_size_le h, use_get_of_size_le h⟩,
    fun index h value => use_set_of_lt h value,
    fun index h value => ⟨set_of_size_le h value, use_set_of_size_le h value⟩⟩,
    size_used_le uses⟩
  rw [get_eq_byteAt h, byteAt_used]

/-- A write that came too early does not count once the cell is there, and the least pointer of all
wraps to the one of two cells that it is congruent to. -/
theorem used_sound_far_pointers :
    (used [.set 1 9, .land Int64.maxValue.toInt, .set 0 7]).1.get 1 = .ok 0 ∧
      ((used [.set 1 9, .land Int64.maxValue.toInt, .set 0 7]).1.land
        Int64.minValue.toInt).pointer ≡ Int64.minValue.toInt [ZMOD 2] := by
  have hsound := (used_sound [.set 1 9, .land Int64.maxValue.toInt, .set 0 7]).1
  exact ⟨hsound.get_eq 1 (by decide), ((hsound.lands _).2.wrapped (by decide)).2.2⟩

end TapeMachine.Tape
