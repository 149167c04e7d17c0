import TapeMachine.Program.Basic

/-!
# Listings

A listing shows a program one instruction to a line: its address, its name and, if the brackets
match and it is a bracket, the address of its partner. If the brackets do not match, a line after
the instructions reports why. The listing ends with an empty line. An address is a numeral in base
sixteen with upper-case digits, of at least four digits behind `0x`.
-/

namespace TapeMachine.Hex

def alphabet : List Char :=
  ['0', '1', '2', '3', '4', '5', '6', '7', '8', '9', 'A', 'B', 'C', 'D', 'E', 'F']

/-- The digit that stands for a value below sixteen. -/
def digit (value : Nat) : Char := alphabet.getD value '0'

/-- The digits of a number, the most significant first and without a leading zero. -/
def digits (n : Nat) : List Char :=
  if n < 16 then [digit n] else digits (n / 16) ++ [digit (n % 16)]
termination_by n

/-- The digits of a number behind as many zeros as make them `width` long. -/
def padded (width n : Nat) : List Char :=
  let ds := digits n
  List.replicate (width - ds.length) '0' ++ ds

/-- The number as an address in a listing. -/
def address (n : Nat) : String := "0x" ++ String.ofList (padded 4 n)

end TapeMachine.Hex

namespace TapeMachine.Program

/-- The first line of every listing. -/
def listingHeader : String := "Addr\tInstr\tOperands"

def listingRow (p : Program) (index : Nat) (instr : Instr) : String :=
  let row := Hex.address index ++ "\t" ++ instr.name
  match p.partner? index with
  | some target => row ++ "\t" ++ Hex.address target
  | none => row

def listingRows (p : Program) : List String := p.instrs.toList.mapIdx p.listingRow

def listingTrailer (p : Program) : List String :=
  (p.imbalance?.map fun imbalance => "; " ++ imbalance.message).toList

def listingLines (p : Program) : List String :=
  listingHeader :: p.listingRows ++ p.listingTrailer ++ [""]

/-- The listing: its lines, each with a line end. -/
def listing (p : Program) : String :=
  p.listingLines.foldl (fun text line => text ++ line ++ "\n") ""

end TapeMachine.Program
