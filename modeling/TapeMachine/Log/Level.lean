import TapeMachine.Text.Numeral

/-!
# Levels and verbosity

A record has a level. A verbosity is the most detailed level that is wanted, or that none is.
-/

namespace TapeMachine

/-- How important a record is, the most important level first. -/
inductive Level where
  | error
  | warn
  | info
  | debug
  | trace
  deriving DecidableEq

namespace Level

/-- The number of levels up to this one: a greater rank is more detailed. -/
def rank : Level → Nat
  | error => 1
  | warn => 2
  | info => 3
  | debug => 4
  | trace => 5

/-- The word that stands for the level at the head of a record. -/
def name : Level → String
  | error => "ERROR"
  | warn => "WARN"
  | info => "INFO"
  | debug => "DEBUG"
  | trace => "TRACE"

end Level

/-- The most detailed level that is wanted; with none, nothing is. -/
abbrev Verbosity := Option Level

namespace Verbosity

def rank : Verbosity → Nat
  | none => 0
  | some level => level.rank

def admits (verbosity : Verbosity) (level : Level) : Bool := level.rank ≤ verbosity.rank

def join (a b : Verbosity) : Verbosity := if a.rank < b.rank then b else a

/-- The verbosity that admits a number of levels, of which there are five. -/
def ofRank? : Nat → Option Verbosity
  | 0 => some none
  | 1 => some (some .error)
  | 2 => some (some .warn)
  | 3 => some (some .info)
  | 4 => some (some .debug)
  | 5 => some (some .trace)
  | _ => none

/-- The verbosity that a word asks for. -/
def ofLowerCase? : List Char → Option Verbosity
  | ['o', 'f', 'f'] => some none
  | ['e', 'r', 'r', 'o', 'r'] => some (some .error)
  | ['w', 'a', 'r', 'n'] => some (some .warn)
  | ['i', 'n', 'f', 'o'] => some (some .info)
  | ['d', 'e', 'b', 'u', 'g'] => some (some .debug)
  | ['t', 'r', 'a', 'c', 'e'] => some (some .trace)
  | _ => none

/-- The verbosity that a word or a numeral asks for. Capital letters make no difference. -/
def ofText? (text : List Char) : Option Verbosity :=
  match ofLowerCase? (text.map Char.toLower) with
  | some verbosity => some verbosity
  | none => (Text.numeral? text).bind ofRank?

theorem rank_join (a b : Verbosity) : (a.join b).rank = max a.rank b.rank := by
  unfold join
  split <;> omega

end Verbosity

end TapeMachine
