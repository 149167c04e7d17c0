import TapeMachine.Text.Split

/-!
# Regular expressions: options, nesting and backslashes

An expression is read under two options. With `spaced`, blanks and comments between its parts mean
nothing; a comment goes from a number sign to the end of its line. With `unicode`, an expression
speaks of all characters, and without it of ASCII characters alone. Parts may be nested in each
other only up to a limit.

A backslash takes its meaning from a sign, or gives one to a letter: the code of a character, a
control character, a class of characters, or a position between characters. Positions that depend
on words, and classes of other than ASCII characters, come in one kind each: the former are only
known without the option `unicode`, the latter only with it.
-/

namespace TapeMachine.Text.Pattern

structure Options where
  /-- Whether blanks and comments mean nothing. -/
  spaced : Bool := false
  /-- Whether the expression speaks of all characters. -/
  unicode : Bool := true
  deriving DecidableEq

/-- A text without the blanks and the comments at its beginning; `commented` in a comment. -/
def passBlanks : Bool → List Char → List Char
  | _, [] => []
  | true, c :: rest => passBlanks (c != '\n') rest
  | false, c :: rest =>
    if isBlank c then passBlanks false rest
    else if c = '#' then passBlanks true rest
    else c :: rest

/-- Pass over what means nothing at the beginning of a text. -/
def Options.skip (o : Options) (text : List Char) : List Char :=
  if o.spaced then passBlanks false text else text

/-- How deep the nesting is of parts that stand together, by the nesting of each. A part by itself
is not nested any deeper. -/
def nesting : List Nat → Nat
  | [] => 0
  | [depth] => depth
  | depths => depths.foldl max 0 + 1

def nestingLimit : Nat := 250

/-! ### Backslashes -/

/-- What an escape, or a character by itself, stands for. -/
inductive Atom where
  | literal (c : Char)
  | oneOf
  | position
  deriving DecidableEq

/-- How many digits the code of a character has behind a letter. -/
def codeLength? : Char → Option Nat
  | 'x' => some 2
  | 'u' => some 4
  | 'U' => some 8
  | _ => none

def hexValue? (c : Char) : Option Nat :=
  if c.isDigit then some (c.toNat - '0'.toNat)
  else if 'a' ≤ c.toLower ∧ c.toLower ≤ 'f' then some (c.toLower.toNat - 'a'.toNat + 10)
  else none

/-- Read as many hexadecimal digits as are owed, behind others of some value. -/
def code? (o : Options) : Nat → Nat → List Char → Option (Nat × List Char)
  | 0, value, text => some (value, text)
  | owed + 1, value, text =>
    match o.skip text with
    | [] => none
    | c :: rest => (hexValue? c).bind fun digit => code? o owed (16 * value + digit) rest

/-- The control character that a letter stands for. -/
def control? : Char → Option Char
  | 'a' => some '\x07'
  | 't' => some '\t'
  | 'n' => some '\n'
  | 'v' => some '\x0b'
  | 'f' => some '\x0c'
  | 'r' => some '\r'
  | _ => none

/-- Whether a letter stands for a general category of characters. -/
def isCategory (c : Char) : Bool := "CLMNPSZclmnpsz".toList.contains c

/-- Whether a character may be escaped to stand for itself. -/
def isSign (c : Char) : Bool := c.toNat < 128 && !c.isAlphanum && c != '<' && c != '>'

def escape? (o : Options) : List Char → Option (Atom × List Char)
  | [] => none
  | c :: rest =>
    match codeLength? c with
    | some owed =>
      match code? o owed 0 rest with
      | some (value, rest) =>
        if value.isValidChar ∧ (o.unicode ∨ c ≠ 'x' ∨ value < 128) then
          some (.literal (Char.ofNat value), rest)
        else none
      | none => none
    | none =>
      if c = 'p' ∨ c = 'P' then
        match o.skip rest with
        | letter :: rest =>
          if o.unicode && isCategory letter then some (.oneOf, rest) else none
        | [] => none
      else if "dsw".toList.contains c then some (.oneOf, rest)
      else if "DSW".toList.contains c then if o.unicode then some (.oneOf, rest) else none
      else if "Az".toList.contains c then some (.position, rest)
      else if "bB<>".toList.contains c then if o.unicode then none else some (.position, rest)
      else if isSign c then some (.literal c, rest)
      else (control? c).map fun c => (.literal c, rest)

end TapeMachine.Text.Pattern
