/-!
# Reading UTF-8 that may be damaged

The decoder reads one byte at a time. Between bytes it knows the character that is in progress:
how many bytes are owed and which values the next one may have, so that no overlong form, no
surrogate and nothing above U+10FFFF is ever completed. A byte that does not fit ends the
character in progress, which becomes a single U+FFFD, and is then read as the first byte of
something new.
-/

namespace TapeMachine.Utf8

/-- A character of which some bytes have been read. -/
structure Unfinished where
  owed : Nat
  low : UInt8
  high : UInt8
  /-- The number that the bytes read so far spell. -/
  value : Nat
  deriving DecidableEq

/-- What stands for bytes that spell no character. -/
def replacement : Char := '\uFFFD'

/-- Read a byte at which a character may begin. -/
def lead (b : UInt8) : List Char × Option Unfinished :=
  if b < 0x80 then ([Char.ofNat b.toNat], none)
  else if b < 0xC2 then ([replacement], none)
  else if b < 0xE0 then ([], some ⟨1, 0x80, 0xBF, b.toNat - 0xC0⟩)
  else if b = 0xE0 then ([], some ⟨2, 0xA0, 0xBF, 0⟩)
  else if b = 0xED then ([], some ⟨2, 0x80, 0x9F, 0xD⟩)
  else if b < 0xF0 then ([], some ⟨2, 0x80, 0xBF, b.toNat - 0xE0⟩)
  else if b = 0xF0 then ([], some ⟨3, 0x90, 0xBF, 0⟩)
  else if b < 0xF4 then ([], some ⟨3, 0x80, 0xBF, b.toNat - 0xF0⟩)
  else if b = 0xF4 then ([], some ⟨3, 0x80, 0x8F, 4⟩)
  else ([replacement], none)

/-- Read a byte: the characters that this completes, and the character in progress after it. -/
def feed (unfinished : Option Unfinished) (b : UInt8) : List Char × Option Unfinished :=
  match unfinished with
  | none => lead b
  | some u =>
    if u.low ≤ b ∧ b ≤ u.high then
      let value := u.value * 64 + (b.toNat - 0x80)
      if u.owed ≤ 1 then ([Char.ofNat value], none)
      else ([], some ⟨u.owed - 1, 0x80, 0xBF, value⟩)
    else
      let (chars, next) := lead b
      (replacement :: chars, next)

/-- The characters that are due at the end of the bytes. -/
def finish : Option Unfinished → List Char
  | none => []
  | some _ => [replacement]

/-- Append to `text` what the bytes stand for, given the character in progress. -/
def decodeOnto (text : String) (unfinished : Option Unfinished) : List UInt8 → String
  | [] => (finish unfinished).foldl String.push text
  | b :: bytes =>
    let (chars, next) := feed unfinished b
    decodeOnto (chars.foldl String.push text) next bytes

def decode (bytes : Array UInt8) : String := decodeOnto "" none bytes.toList

theorem lead_ascii {b : UInt8} (h : b < 0x80) : lead b = ([Char.ofNat b.toNat], none) := if_pos h

end TapeMachine.Utf8
