import TapeMachine.Text.Pattern.Basic

/-!
# Regular expressions: classes in brackets

A class is a list of members in brackets: characters, ranges of them, classes that have a name, and
classes in brackets of their own. Two signs in a row combine what is before them with what is
behind them. A caret at the beginning of a class stands for all other characters, which there are
only with the option `unicode`.
-/

namespace TapeMachine.Text.Pattern

/-- What has been read of a class, by how deep its parts are nested. -/
structure ClassLevel where
  /-- What the members are to be combined with, if it is there. -/
  combined : Option Nat := none
  members : List Nat := []
  /-- Whether nothing but hyphens has been read. -/
  fresh : Bool := true

namespace ClassLevel

/-- How deep what has been read of a class is nested. -/
def depth (level : ClassLevel) : Nat :=
  match level.combined with
  | none => nesting level.members
  | some depth => max depth (nesting level.members) + 1

def pushHyphen (level : ClassLevel) : ClassLevel :=
  { level with members := 0 :: level.members }

def push (level : ClassLevel) (depth : Nat) : ClassLevel :=
  { level with members := depth :: level.members, fresh := false }

def combine (level : ClassLevel) : ClassLevel :=
  { combined := some level.depth, fresh := false }

end ClassLevel

def classNames : List String :=
  ["alnum", "alpha", "ascii", "blank", "cntrl", "digit", "graph", "lower", "print", "punct",
    "space", "upper", "word", "xdigit"]

/-- Read a class that has a name, behind its bracket: a colon, perhaps a caret for all other
characters, the name, a colon and a bracket. The result is whether the caret is there, and the text
behind the class. -/
def namedClass? : List Char → Option (Bool × List Char)
  | ':' :: '^' :: rest => (named? rest).map fun rest => (true, rest)
  | ':' :: rest => (named? rest).map fun rest => (false, rest)
  | _ => none
where
  /-- Read the name and what is behind it. -/
  named? (text : List Char) : Option (List Char) :=
    match text.span (· != ':') with
    | (name, ':' :: ']' :: rest) =>
      if classNames.contains (String.ofList name) then some rest else none
    | _ => none

/-- Read the beginning of a class, behind its bracket. -/
def classOpening? (o : Options) (text : List Char) : Option (List Char) :=
  match o.skip text with
  | '^' :: rest => if o.unicode then some rest else none
  | text => some text

/-- Read a character or an escape. -/
def atom? (o : Options) : List Char → Option (Atom × List Char)
  | [] => none
  | '\\' :: rest => escape? o rest
  | c :: rest => some (.literal c, rest)

def Atom.isMember (o : Options) : Atom → Bool
  | .literal c => o.unicode || c.toNat < 128
  | .oneOf => true
  | .position => false

/-- The character behind a hyphen, by which a range is told. Comments are not passed over here,
only their first signs. -/
def behindHyphen? (o : Options) (text : List Char) : Option Char :=
  if o.spaced then
    match text.dropWhile isBlank with
    | '#' :: rest => (rest.dropWhile isBlank).head?
    | text => text.head?
  else text.head?

/-- Read the second end of a range, behind its hyphen. -/
def rangeEnd? (o : Options) (first : Atom) (text : List Char) : Option (List Char) :=
  match first, atom? o (o.skip text) with
  | .literal a, some (.literal b, rest) =>
    if Atom.isMember o (.literal a) && Atom.isMember o (.literal b) && a ≤ b then some rest
    else none
  | _, _ => none

/-- Read a character, an escape or a range in a class. -/
def member? (o : Options) (text : List Char) : Option (List Char) :=
  match atom? o text with
  | none => none
  | some (atom, rest) =>
    let single? (rest : List Char) := if atom.isMember o then some rest else none
    match o.skip rest with
    | '-' :: behind =>
      match behindHyphen? o behind with
      | some ']' | some '-' => single? ('-' :: behind)
      | _ => rangeEnd? o atom behind
    | rest => single? rest

/-- Read the rest of a class with the classes around it, innermost first. The result is how deep the
outermost one is nested, and the text behind it. At the beginning of a class a bracket is a member,
and so are hyphens. -/
def classRest? (o : Options) :
    Nat → List ClassLevel → ClassLevel → List Char → Option (Nat × List Char)
  | 0, _, _, _ => none
  | fuel + 1, outer, level, text =>
    match o.skip text with
    | '[' :: rest =>
      match namedClass? rest with
      | some (others, rest) =>
        if others && !o.unicode then none else classRest? o fuel outer (level.push 0) rest
      | none =>
        match classOpening? o rest with
        | some rest => classRest? o fuel (level :: outer) {} rest
        | none => none
    | ']' :: rest =>
      if level.fresh && level.members.isEmpty then classRest? o fuel outer (level.push 0) rest
      else
        match outer with
        | [] => some (level.depth + 1, rest)
        | around :: outer => classRest? o fuel outer (around.push (level.depth + 1)) rest
    | text =>
      match level.fresh, text with
      | true, '-' :: rest => classRest? o fuel outer level.pushHyphen rest
      | _, '&' :: '&' :: rest | _, '-' :: '-' :: rest | _, '~' :: '~' :: rest =>
        classRest? o fuel outer level.combine rest
      | _, text =>
        match member? o text with
        | some rest => classRest? o fuel outer (level.push 0) rest
        | none => none

/-- Read a class, behind its bracket. Every part of it has a character at least. -/
def class? (o : Options) (text : List Char) : Option (Nat × List Char) :=
  (classOpening? o text).bind fun rest => classRest? o (rest.length + 1) [] {} rest

end TapeMachine.Text.Pattern
