import TapeMachine.Instr

/-!
# Pairing loop brackets

One pass over an instruction sequence pairs every loop bracket with its partner. The pass keeps
the positions of the loops that are open, innermost first, and one table entry per instruction
read. It stops at the first end that closes no loop; at the end of the sequence no loop may be
open. Otherwise the result is an `Imbalance`: the first thing wrong with the brackets, at a position
that counts instructions from zero. `Pairing.readAll_append` lets the pass be cut anywhere.
-/

namespace TapeMachine

/-- The first thing wrong with the loop brackets of an instruction sequence. -/
inductive Imbalance where
  /-- The loop end at `index` closes no loop. -/
  | unmatchedEnd (index : Nat)
  /-- The sequence is over and `unclosed` loops are open, the innermost since `index`. -/
  | unmatchedBegin (index unclosed : Nat)
  deriving DecidableEq

namespace Imbalance

def message : Imbalance → String
  | unmatchedEnd index => s!"More ] than [ (instruction {index})"
  | unmatchedBegin index unclosed =>
    s!"More [ than ] ({unclosed} unclosed, innermost at instruction {index})"

/-- The imbalance of a sequence that is preceded by `k` instructions in balance. -/
def shift (k : Nat) : Imbalance → Imbalance
  | unmatchedEnd index => unmatchedEnd (index + k)
  | unmatchedBegin index unclosed => unmatchedBegin (index + k) unclosed

end Imbalance

/-- For every instruction the position of its partner, if it is a loop bracket. -/
abbrev Partners := Array (Option Nat)

@[inline] def Partners.partner? (partners : Partners) (index : Nat) : Option Nat :=
  partners[index]?.join

/-- How far the pairing of a sequence has come. -/
structure Pairing where
  /-- Positions of the loops that are open, innermost first. -/
  pending : List Nat
  partners : Partners

namespace Pairing

def empty : Pairing := ⟨[], #[]⟩

/-- Read the instruction at position `partners.size`. -/
def read : Pairing → Instr → Except Imbalance Pairing
  | ⟨pending, partners⟩, .act _ => .ok ⟨pending, partners.push none⟩
  | ⟨pending, partners⟩, .loopBegin => .ok ⟨partners.size :: pending, partners.push none⟩
  | ⟨[], partners⟩, .loopEnd => .error (.unmatchedEnd partners.size)
  | ⟨start :: pending, partners⟩, .loopEnd =>
    let index := partners.size
    .ok ⟨pending, (partners.push (some start)).setIfInBounds start (some index)⟩

/-- Read instructions until they are all read or one is at fault. -/
def readAll : Pairing → List Instr → Except Imbalance Pairing
  | pairing, [] => .ok pairing
  | pairing, instr :: rest =>
    match pairing.read instr with
    | .ok next => readAll next rest
    | .error imbalance => .error imbalance

/-- The table, provided that no loop is open. -/
def finish : Pairing → Except Imbalance Partners
  | ⟨[], partners⟩ => .ok partners
  | ⟨index :: outer, _⟩ => .error (.unmatchedBegin index (outer.length + 1))

theorem readAll_cons (p : Pairing) (i : Instr) (is : List Instr) :
    p.readAll (i :: is) = (p.read i >>= fun q => q.readAll is) := by
  simp only [readAll]
  cases p.read i <;> rfl

theorem readAll_append (p : Pairing) (is js : List Instr) :
    p.readAll (is ++ js) = (p.readAll is >>= fun q => q.readAll js) := by
  induction is generalizing p with
  | nil => rfl
  | cons i is ih =>
    rw [List.cons_append, readAll_cons, readAll_cons]
    cases p.read i with
    | error e => rfl
    | ok q => exact ih q

end Pairing

/-- Pair the loop brackets of an instruction sequence, or say what is wrong with them. -/
def pairBrackets (instrs : List Instr) : Except Imbalance Partners :=
  match Pairing.empty.readAll instrs with
  | .ok pairing => pairing.finish
  | .error imbalance => .error imbalance

end TapeMachine
