/-!
# Decimal numerals

Numerals of natural numbers, with an optional plus sign and any number of leading zeros, and the
wider form of numerals that may have a fraction or an exponent.
-/

namespace TapeMachine.Text

def digitValue? (c : Char) : Option Nat :=
  if '0' ≤ c ∧ c ≤ '9' then some (c.toNat - '0'.toNat) else none

/-- The number that decimal digits spell, behind digits that spell `n`. -/
def numberFrom (n : Nat) : List Char → Option Nat
  | [] => some n
  | c :: cs =>
    match digitValue? c with
    | some d => numberFrom (n * 10 + d) cs
    | none => none

/-- The number that a numeral spells: one or more decimal digits behind an optional plus sign. -/
def numeral? : List Char → Option Nat
  | [] => none
  | ['+'] => none
  | '+' :: cs => numberFrom 0 cs
  | cs => numberFrom 0 cs

/-- The number below 2^64 that a numeral spells. -/
def wordNumeral? (cs : List Char) : Option UInt64 :=
  match numeral? cs with
  | some n => if n < UInt64.size then some (UInt64.ofNat n) else none
  | none => none

/-- A text without the sign that it may begin with. -/
def dropSign : List Char → List Char
  | '+' :: cs => cs
  | '-' :: cs => cs
  | cs => cs

/-- Whether a text is an exponent: nothing, or one or more digits behind a letter and perhaps a
sign. -/
def isExponent : List Char → Bool
  | [] => true
  | 'e' :: cs | 'E' :: cs => dropSign cs != [] && (dropSign cs).all Char.isDigit
  | _ => false

/-- Whether a text is a numeral that may have a sign, a fraction and an exponent, or one of the
words for what is not a finite number. -/
def isRealNumeral (cs : List Char) : Bool :=
  let cs := dropSign cs
  let whole := cs.takeWhile Char.isDigit
  let (fraction, rest) :=
    match cs.dropWhile Char.isDigit with
    | '.' :: rest => (rest.takeWhile Char.isDigit, rest.dropWhile Char.isDigit)
    | rest => ([], rest)
  ["inf", "infinity", "nan"].contains (String.ofList (cs.map Char.toLower)) ||
    ((whole != [] || fraction != []) && isExponent rest)

end TapeMachine.Text
