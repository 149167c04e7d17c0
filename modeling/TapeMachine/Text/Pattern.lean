import TapeMachine.Text.Pattern.Token

/-!
# Regular expressions

Which texts are regular expressions. The reader keeps one level for every group that is not closed,
and of the parts on a level it keeps how deep they are nested. An expression is one if its groups
are closed, no two of them have the same name, every repetition has something to repeat, and nothing
is nested deeper than the limit.
-/

namespace TapeMachine.Text

namespace Pattern

structure Part where
  depth : Nat
  repeatable : Bool
  deriving DecidableEq

structure Level where
  /-- How deep the alternatives before the last bar are nested. -/
  before : List Nat := []
  /-- The parts of the alternative behind it, last part first. -/
  parts : List Part := []
  deriving DecidableEq

namespace Level

/-- How deep the last alternative is nested. -/
def current (level : Level) : Nat := nesting (level.parts.map Part.depth)

def depth (level : Level) : Nat := nesting (level.current :: level.before)

def push (level : Level) (part : Part) : Level := { level with parts := part :: level.parts }

end Level

structure Reader where
  options : Options := {}
  level : Level := {}
  /-- What is around it, innermost first, and the options there. -/
  outer : List (Options × Level) := []
  names : List (List Char) := []

namespace Reader

def push? (r : Reader) : Token → Option Reader
  | .part depth => some { r with level := r.level.push ⟨depth, true⟩ }
  | .change options => some { r with options, level := r.level.push ⟨0, false⟩ }
  | .repetition =>
    match r.level.parts with
    | ⟨depth, true⟩ :: parts =>
      some { r with level := { r.level with parts := ⟨depth + 1, true⟩ :: parts } }
    | _ => none
  | .bar => some { r with level := { before := r.level.current :: r.level.before } }
  | .opening name options =>
    if name.any r.names.contains then none
    else
      some { options, level := {}, outer := (r.options, r.level) :: r.outer,
             names := name.toList ++ r.names }
  | .closing =>
    match r.outer with
    | [] => none
    | (options, level) :: outer =>
      some { r with options, outer, level := level.push ⟨r.level.depth + 1, true⟩ }

/-- Read the rest of an expression. -/
def read? : Nat → Reader → List Char → Option Reader
  | 0, _, _ => none
  | fuel + 1, r, text =>
    match r.options.skip text with
    | [] => some r
    | c :: rest =>
      match token? r.options c rest with
      | some (token, rest) => (r.push? token).bind fun r => read? fuel r rest
      | none => none

/-- Whether what has been read is an expression by itself. -/
def isComplete (r : Reader) : Bool := r.outer.isEmpty && r.level.depth ≤ nestingLimit

end Reader

end Pattern

/-- Whether a text is a regular expression. Every token of it has a character at least. -/
def isPattern (text : List Char) : Bool :=
  (Pattern.Reader.read? (text.length + 1) {} text).any Pattern.Reader.isComplete

end TapeMachine.Text
