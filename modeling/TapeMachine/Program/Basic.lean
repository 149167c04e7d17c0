import TapeMachine.Brackets.Pairing
import TapeMachine.Brackets.Search
import TapeMachine.Fault

/-!
# Programs

A program is an instruction sequence together with the result of pairing its loop brackets. The
pairing is a function of the sequence, so two programs with the same instructions are equal
(`Program.ext`). A program whose brackets do not match can be looked at and listed; it cannot be
run, and asking it for the other end of a loop is a fault.
-/

namespace TapeMachine

/-- An instruction sequence with its brackets paired. -/
structure Program where
  instrs : Array Instr
  /-- The partner of each bracket, or what is wrong with the brackets. -/
  pairing : Except Imbalance Partners
  pairing_eq : pairing = pairBrackets instrs.toList

namespace Program

def ofArray (instrs : Array Instr) : Program := ⟨instrs, pairBrackets instrs.toList, rfl⟩

def ofList (instrs : List Instr) : Program := ofArray instrs.toArray

@[simp] theorem instrs_ofList (instrs : List Instr) : (ofList instrs).instrs = instrs.toArray :=
  rfl

theorem ext {p q : Program} (h : p.instrs = q.instrs) : p = q := by
  obtain ⟨instrs, pairing, hp⟩ := p
  obtain ⟨instrs', pairing', hq⟩ := q
  cases h
  cases hp
  cases hq
  rfl

theorem ext_iff {p q : Program} : p = q ↔ p.instrs = q.instrs :=
  ⟨fun h => h ▸ rfl, ext⟩

instance : DecidableEq Program := fun _ _ => decidable_of_iff' _ ext_iff

def toList (p : Program) : List Instr := p.instrs.toList

def size (p : Program) : Nat := p.instrs.size

def isEmpty (p : Program) : Bool := p.instrs.isEmpty

/-- The instruction at `index`, for a caller who may ask for one that is not there. -/
def operationAt (p : Program) (index : Nat) : Except Error Instr :=
  if h : index < p.instrs.size then .ok p.instrs[index]
  else .error (.outOfRange index p.instrs.size)

/-- The instruction at `index`, for a caller who knows that it is there. -/
@[inline] def fetch (p : Program) (index : Nat) : Except Fault Instr :=
  if h : index < p.instrs.size then .ok p.instrs[index]
  else .error (.indexOutOfBounds index p.instrs.size)

/-- What is wrong with the brackets, if anything is. -/
def imbalance? (p : Program) : Option Imbalance :=
  match p.pairing with
  | .ok _ => none
  | .error imbalance => some imbalance

/-- Whether every loop begin has its end after it and the other way round. -/
def bracketsMatch (p : Program) : Bool := p.imbalance?.isNone

/-- Refuse a program whose brackets do not match. -/
def validate (p : Program) : Except Error Unit :=
  match p.imbalance? with
  | none => .ok ()
  | some imbalance => .error (.malformed imbalance)

/-- The partner of the bracket at `index`, if the brackets match and there is one. -/
def partner? (p : Program) (index : Nat) : Option Nat :=
  match p.pairing with
  | .ok partners => partners.partner? index
  | .error _ => none

/-- The partner of the bracket at `index`, by the table. -/
@[inline] def jumpTarget (p : Program) (index : Nat) : Except Fault Nat :=
  match p.pairing with
  | .error _ => .error .jumpWithoutMatch
  | .ok partners =>
    match partners.partner? index with
    | some target => .ok target
    | none => .error (.notABracket index)

/-- Refuse a search that does not start at the bracket it should start at. -/
def expectBracket (p : Program) (expected : Instr) (index : Nat) : Except Fault Unit :=
  if !p.bracketsMatch then .error .searchWithoutMatch
  else if p.instrs[index]? = some expected then .ok ()
  else .error (.unexpectedInstr expected index p.instrs[index]?)

/-- The end of the loop that begins at `start`, by a search forward. -/
def loopEndOf (p : Program) (start : Nat) : Except Fault Nat := do
  p.expectBracket .loopBegin start
  match ← searchForward p.instrs (start + 1) 1 with
  | some finish => .ok finish
  | none => .error (.endNotFound start)

/-- The beginning of the loop that ends at `finish`, by a search backward. -/
def loopBeginOf (p : Program) (finish : Nat) : Except Fault Nat := do
  p.expectBracket .loopEnd finish
  match ← searchBackward p.instrs finish 1 with
  | some start => .ok start
  | none => .error (.beginNotFound finish)

end Program

/-! ### Programs from source text -/

/-- The instructions in a source text: a symbol is an instruction, everything else is a comment. -/
def decodeSource (text : String) : List Instr := text.toList.filterMap Instr.ofSymbol?

/-- The symbols of an instruction sequence, one after the other. -/
def encodeSource (instrs : List Instr) : String := String.ofList (instrs.map Instr.symbol)

/-- The program in a source text, whether or not its brackets match. -/
def Program.ofSource (text : String) : Program := .ofList (decodeSource text)

theorem decodeSource_encodeSource (instrs : List Instr) :
    decodeSource (encodeSource instrs) = instrs := by
  induction instrs with
  | nil => rfl
  | cons i is ih =>
    simp only [decodeSource, encodeSource, String.toList_ofList] at ih ⊢
    simp [ih]

end TapeMachine
