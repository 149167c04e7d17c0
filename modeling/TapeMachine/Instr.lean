/-!
# Instructions

The machine has seven instructions, written with one character each. Five of them act on the
tape or the output and pass control to the next instruction; the two loop brackets decide where
control goes. `Instr.symbol` writes an instruction and `Instr.ofSymbol?` reads one; a character
that is not a symbol is a comment. The main statement, `Instr.ofSymbol?_eq_some_iff`, says that
the two are inverse to each other.
-/

namespace TapeMachine

/-- An instruction that always passes control to the next one. -/
inductive Action where
  | right
  | left
  | increment
  | decrement
  | print
  deriving DecidableEq

/-- An instruction: an action, or one of the two brackets of a loop. -/
inductive Instr where
  | act (action : Action)
  /-- Go past the loop if the current cell is zero. -/
  | loopBegin
  /-- Go back into the loop unless the current cell is zero. -/
  | loopEnd
  deriving DecidableEq

namespace Instr

/-- The character that stands for an instruction in a source text. -/
def symbol : Instr → Char
  | act .right => '>'
  | act .left => '<'
  | act .increment => '+'
  | act .decrement => '-'
  | act .print => '.'
  | loopBegin => '['
  | loopEnd => ']'

/-- The instruction that a character stands for, if it is a symbol. -/
def ofSymbol? : Char → Option Instr
  | '>' => some (act .right)
  | '<' => some (act .left)
  | '+' => some (act .increment)
  | '-' => some (act .decrement)
  | '.' => some (act .print)
  | '[' => some loopBegin
  | ']' => some loopEnd
  | _ => none

/-- The word for an instruction in listings and messages. -/
def name : Instr → String
  | act .right => "NEXT"
  | act .left => "PREV"
  | act .increment => "INC"
  | act .decrement => "DEC"
  | act .print => "PRINT"
  | loopBegin => "BEGIN"
  | loopEnd => "END"

/-- Every instruction, in the order in which the symbols are usually given. -/
def all : List Instr :=
  [act .right, act .left, act .increment, act .decrement, act .print, loopBegin, loopEnd]

/-- The instruction that a word of a listing stands for. -/
def ofName? (name : String) : Option Instr := all.find? fun i => i.name == name

@[simp] theorem ofSymbol?_symbol (i : Instr) : ofSymbol? i.symbol = some i := by
  cases i with
  | act a => cases a <;> rfl
  | loopBegin => rfl
  | loopEnd => rfl

theorem ofSymbol?_eq_some_iff {c : Char} {i : Instr} : ofSymbol? c = some i ↔ c = i.symbol := by
  constructor
  · intro h
    unfold ofSymbol? at h
    split at h <;> first | (cases h; rfl) | cases h
  · rintro rfl
    exact ofSymbol?_symbol i

@[simp] theorem ofName?_name (i : Instr) : ofName? i.name = some i := by
  cases i with
  | act a => cases a <;> rfl
  | loopBegin => rfl
  | loopEnd => rfl

end Instr

end TapeMachine
