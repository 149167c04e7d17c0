import TapeMachine.Text.Alphanumeric
import TapeMachine.Text.Pattern.Bracket

/-!
# Regular expressions: tokens

An expression is a row of tokens: parts that match something, signs that repeat the part before
them, bars between alternatives, and what begins and ends a group or changes the options. A counted
repetition is no token here: it takes a brace at its end.
-/

namespace TapeMachine.Text.Pattern

inductive Token where
  /-- A part that matches something, and how deep it is nested. -/
  | part (depth : Nat)
  | repetition
  | bar
  | opening (name : Option (List Char)) (options : Options)
  | closing
  | change (options : Options)
  deriving DecidableEq

def isName : List Char → Bool
  | [] => false
  | c :: rest =>
    (c == '_' || isAlphabetic c) &&
      rest.all fun c => "_.[]".toList.contains c || isAlphanumeric c

/-- Whether letters set options, or behind a hyphen clear them. -/
def areFlags (letters : List Char) : Bool :=
  letters.all ("imsUuRx-".toList.contains ·) && letters.Nodup && letters.getLast? != some '-'

/-- The options after letters have set or cleared them. -/
def Options.update (o : Options) (letters : List Char) : Options :=
  let kept (letter : Char) (old : Bool) : Bool :=
    if letters.contains letter then (letters.takeWhile (· != '-')).contains letter else old
  { spaced := kept 'x' o.spaced, unicode := kept 'u' o.unicode }

/-- Read a name, and what is behind it. -/
def name? (o : Options) (text : List Char) : Option (Token × List Char) :=
  match text.span (· != '>') with
  | (name, '>' :: rest) => if isName name then some (.opening (some name) o, rest) else none
  | _ => none

/-- Read letters for options, up to a colon before the contents of a group or up to the end of the
brackets. -/
def flags? (o : Options) (text : List Char) : Option (Token × List Char) :=
  let (letters, rest) := text.span fun c => c != ':' && c != ')'
  if areFlags letters then
    match rest with
    | ':' :: rest => some (.opening none (o.update letters), rest)
    | ')' :: rest => if letters.isEmpty then none else some (.change (o.update letters), rest)
    | _ => none
  else none

/-- Read the beginning of a group, behind its bracket. -/
def group? (o : Options) (text : List Char) : Option (Token × List Char) :=
  match o.skip text with
  | '?' :: 'P' :: '<' :: rest | '?' :: '<' :: rest => name? o rest
  | '?' :: rest => flags? o rest
  | rest => some (.opening none o, rest)

/-- Read a token that begins with a character. -/
def token? (o : Options) (c : Char) (rest : List Char) : Option (Token × List Char) :=
  match c with
  | '(' => group? o rest
  | ')' => some (.closing, rest)
  | '|' => some (.bar, rest)
  | '[' => (class? o rest).map fun (depth, rest) => (.part depth, rest)
  | '?' | '*' | '+' => some (.repetition, if rest.head? = some '?' then rest.tail else rest)
  | '\x7b' => none
  | '\\' => (escape? o rest).map fun (_, rest) => (.part 0, rest)
  | '.' => if o.unicode then some (.part 0, rest) else none
  | _ => some (.part 0, rest)

end TapeMachine.Text.Pattern
