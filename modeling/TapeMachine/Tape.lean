import TapeMachine.Fault

/-!
# The tape

The memory of the machine is a row of byte cells that starts with a single zero cell. It grows on
the right, one zero cell at a time, and never shrinks. A pointer that has left the tape is brought
back by `Tape.land`: on the left it wraps around the present length, on the right it lands on a
new cell.
-/

namespace TapeMachine

structure Tape where
  cells : Array UInt8
  deriving DecidableEq

/-- Where a pointer landed, on the tape as it is after the landing. -/
structure Landing where
  /-- The tape, with one more cell if the pointer was past its end. -/
  tape : Tape
  pointer : Int
  grew : Bool
  deriving DecidableEq

namespace Tape

def fresh : Tape := ⟨#[0]⟩

def size (t : Tape) : Nat := t.cells.size

@[inline] def get (t : Tape) (index : Nat) : Except Fault UInt8 :=
  if h : index < t.cells.size then .ok t.cells[index]
  else .error (.indexOutOfBounds index t.cells.size)

@[inline] def set (t : Tape) (index : Nat) (value : UInt8) : Except Fault Tape :=
  if h : index < t.cells.size then .ok ⟨t.cells.set index value h⟩
  else .error (.indexOutOfBounds index t.cells.size)

/-- The tape with one more zero cell on the right. -/
def grow (t : Tape) : Tape := ⟨t.cells.push 0⟩

/-- Bring a pointer back onto the tape. A negative one wraps around the length; one past the end
lands on a new cell, however far it was past the end. -/
@[inline] def land (t : Tape) (pointer : Int) : Landing :=
  if pointer < 0 then ⟨t, pointer % (t.size : Int), false⟩
  else if pointer < (t.size : Int) then ⟨t, pointer, false⟩
  else ⟨t.grow, t.size, true⟩

@[simp] theorem size_fresh : fresh.size = 1 := rfl

@[simp] theorem size_grow (t : Tape) : t.grow.size = t.size + 1 := by
  simp [grow, size]

theorem size_set {t t' : Tape} {index : Nat} {value : UInt8} (h : t.set index value = .ok t') :
    t'.size = t.size := by
  unfold set at h
  split at h
  · cases h
    simp [size]
  · cases h

theorem get_of_lt (t : Tape) {index : Nat} (h : index < t.cells.size) :
    t.get index = .ok (t.cells[index]) :=
  dif_pos h

theorem get_set_self {t t' : Tape} {index : Nat} {value : UInt8}
    (h : t.set index value = .ok t') : t'.get index = .ok value := by
  unfold set at h
  split at h
  · next hlt =>
    cases h
    simp [get, hlt]
  · cases h

theorem get_set_of_ne {t t' : Tape} {index other : Nat} {value : UInt8}
    (h : t.set index value = .ok t') (hne : other ≠ index) : t'.get other = t.get other := by
  unfold set at h
  split at h
  · next hlt =>
    cases h
    simp [get, Array.getElem_set, Ne.symm hne]
  · cases h

theorem get_grow_size (t : Tape) : t.grow.get t.size = .ok 0 := by
  simp [get, grow, size]

theorem get_grow_of_lt (t : Tape) {index : Nat} (h : index < t.size) :
    t.grow.get index = t.get index := by
  have h' : index < t.cells.size := h
  simp [get, grow, h', Nat.lt_succ_of_lt h', Array.getElem_push]

theorem land_of_neg (t : Tape) {p : Int} (h : p < 0) :
    t.land p = ⟨t, p % (t.size : Int), false⟩ :=
  if_pos h

theorem land_of_mem (t : Tape) {p : Int} (h₀ : 0 ≤ p) (h : p < (t.size : Int)) :
    t.land p = ⟨t, p, false⟩ := by
  simp [land, Int.not_lt.2 h₀, h]

theorem land_of_le (t : Tape) {p : Int} (h : (t.size : Int) ≤ p) :
    t.land p = ⟨t.grow, t.size, true⟩ := by
  have h₀ : ¬p < 0 := by omega
  simp [land, h₀, Int.not_lt.2 h]

/-- Only a pointer past the end changes the tape. -/
theorem land_of_lt (t : Tape) {p : Int} (h : p < (t.size : Int)) :
    ∃ pointer, t.land p = ⟨t, pointer, false⟩ := by
  by_cases hneg : p < 0
  · exact ⟨_, t.land_of_neg hneg⟩
  · exact ⟨p, t.land_of_mem (Int.not_lt.1 hneg) h⟩

end Tape

end TapeMachine
