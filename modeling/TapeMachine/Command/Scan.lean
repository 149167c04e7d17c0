import TapeMachine.Command.Reader
import TapeMachine.Text.Numeral
import TapeMachine.Text.Split

/-!
# The reader of the usage

A reader of arguments as the usage asks for one. Arguments are scanned from left to right into flags
and operands. The first `--` ends the flags; a lone `-`, whatever does not begin with `-`, and most
of what holds a blank is an operand. Flags and operands, in any order, then have to be what a
pattern of the usage lists. The text of a budget is read as a number only after that.
-/

namespace TapeMachine.Text

/-- From the row of `a`, the row of `c :: a`. -/
def extendRow (c : Char) : List Char → List Nat → List Nat
  | [], row => [row.headD 0 + 1]
  | b :: bs, row =>
    let rest := extendRow c bs row.tail
    let here :=
      if c = b then row.tail.headD 0
      else 1 + min (row.headD 0) (min (rest.headD 0) (row.tail.headD 0))
    here :: rest

/-- The row of the empty text: all the rest has to be inserted. -/
def emptyRow : List Char → List Nat
  | [] => [0]
  | _ :: bs => (bs.length + 1) :: emptyRow bs

/-- The distances from `a` to every final segment of `b`. -/
def distanceRow (a b : List Char) : List Nat :=
  a.foldr (fun c row => extendRow c b row) (emptyRow b)

/-- The least number of insertions, deletions and substitutions of single characters that turn one
text into another. -/
def distance (a b : List Char) : Nat := (distanceRow a b).headD 0

end TapeMachine.Text

namespace TapeMachine.Command

/-! ### What can be wrong with arguments -/

namespace Flag

def distanceTo (name : String) (flag : Flag) : Nat := Text.distance name.toList flag.long.toList

/-- The flag that a written name comes nearest to, the first of those that are equally near. -/
def nearest (name : String) : Flag :=
  all.foldl (fun best flag => if distanceTo name flag < distanceTo name best then flag else best)
    budget

/-- The flag that a written name was perhaps meant for: at most two edits make it of the name. -/
def near? (name : String) : Option Flag :=
  let flag := nearest name
  if distanceTo name flag < 3 then some flag else none

end Flag

/-- What is wrong with arguments that are not what the usage asks for. -/
inductive UsageError where
  | unknownLetter (letter : Char)
  | unknownName (name : String)
  | unexpectedValue (flag : Flag) (value : String)
  | missingValue (flag : Flag)
  /-- The arguments can be scanned and are not what the usage lists. -/
  | noForm
  deriving DecidableEq

def UsageError.message : UsageError → String
  | unknownLetter letter => "Unknown flag: '-" ++ String.singleton letter ++ "'"
  | unknownName name =>
    let meant :=
      match Flag.near? name with
      | some flag => ". Did you mean '" ++ flag.long ++ "'?"
      | none => ""
    "Unknown flag: '" ++ name ++ "'" ++ meant
  | unexpectedValue flag value =>
    "Flag '" ++ flag.long ++ "' cannot have an argument, but found '" ++ value ++ "'."
  | missingValue flag =>
    "Expected argument for flag '" ++ flag.long ++ "' but reached end of arguments."
  | noForm => "Invalid arguments."

/-- Why the program does not begin. -/
inductive Refusal where
  | usage (error : UsageError)
  | unreadableBudget (text : String)
  /-- Nothing is wrong, but it is the help that is asked for. -/
  | help
  deriving DecidableEq

namespace Refusal

def isFatal : Refusal → Bool
  | usage _ => true
  | unreadableBudget _ => true
  | help => false

def text : Refusal → String
  | usage error => error.message ++ "\n\n" ++ Usage.forms
  | unreadableBudget text =>
    "Could not deserialize '" ++ text ++ "' to u64 for '" ++ Flag.budget.long ++ "'."
  | help => Usage.text

def exit (refusal : Refusal) : Exit :=
  let line := refusal.text ++ "\n"
  if refusal.isFatal then { status := 1, message := line }
  else { status := 0, output := line.toUTF8.data }

end Refusal

/-! ### Scanning -/

namespace Token

/-- The flag, given the value that is written with it. -/
def ofFlag : Flag → Option String → Except UsageError Token
  | .budget, some value => .ok (budget value)
  | .budget, none => .error (.missingValue .budget)
  | .dump, none => .ok dump
  | .help, none => .ok help
  | .keepOutput, none => .ok keepOutput
  | flag, some value => .error (.unexpectedValue flag value)

/-- The flags that are written with the letters after a single dash. -/
def ofLetters : List Char → Except UsageError (List Token)
  | [] => .ok []
  | letter :: letters => do
    let some flag := Flag.ofLetter? letter | .error (.unknownLetter letter)
    let token ← ofFlag flag none
    return token :: (← ofLetters letters)

end Token

/-- An argument by its looks. -/
inductive Shape where
  | endOfFlags
  | operand
  | letters (letters : List Char)
  | name (name : String) (value : Option String)
  deriving DecidableEq

/-- What is before the first equals sign and what is behind it. -/
def splitEquals (text : List Char) : String × Option String :=
  let name := String.ofList (text.takeWhile (· != '='))
  match text.dropWhile (· != '=') with
  | [] => (name, none)
  | _ :: value => (name, some (String.ofList value))

/-- Whether no character of a text is blank. -/
def isSolid (text : List Char) : Bool := text.all fun c => !Text.isBlank c

/-- Whether a text behind two dashes is a flag: one or more characters of which none is blank,
or such characters, an equals sign, and one or more characters on the same line. -/
def isWritten : List Char → Bool
  | [] => false
  | c :: rest =>
    isSolid (c :: rest) ||
      match rest.dropWhile (· != '=') with
      | _ :: value =>
        isSolid (c :: rest.takeWhile (· != '=')) && !value.isEmpty && !value.contains '\n'
      | [] => false

/-- The looks of an argument. A blank where a flag has none makes an operand of it. -/
def Shape.of (argument : String) : Shape :=
  match argument.toList with
  | ['-', '-'] => endOfFlags
  | '-' :: '-' :: rest =>
    if isWritten rest then
      let (written, value) := splitEquals ('-' :: '-' :: rest)
      name written value
    else operand
  | '-' :: letter :: rest => if isSolid rest then letters (letter :: rest) else operand
  | _ => operand

/-- Read arguments from left to right; the first that cannot be read decides the error. -/
def scan : List String → Except UsageError (List Token)
  | [] => .ok []
  | argument :: rest =>
    match Shape.of argument with
    | .endOfFlags => .ok (rest.map .operand)
    | .operand => do return .operand argument :: (← scan rest)
    | .letters letters => do
      let tokens ← Token.ofLetters letters
      return tokens ++ (← scan rest)
    | .name written value =>
      match Flag.ofLong? written, value, rest with
      | none, _, _ => .error (.unknownName written)
      | some .budget, none, value :: rest => do return .budget value :: (← scan rest)
      | some flag, value, rest => do
        let token ← Token.ofFlag flag value
        return token :: (← scan rest)

/-! ### What the usage lists -/

/-- One operand, a budget and `--partial` at most once each, and no other flag. -/
structure FitsRun (tokens : List Token) : Prop where
  one_operand : (Token.operands tokens).length = 1
  budgets_le_one : (Token.budgets tokens).length ≤ 1
  keepOutput_le_one : tokens.count .keepOutput ≤ 1
  no_dump : .dump ∉ tokens
  no_help : .help ∉ tokens

/-- One operand, `--dump` once, and nothing else. -/
structure FitsDump (tokens : List Token) : Prop where
  one_operand : (Token.operands tokens).length = 1
  one_dump : tokens.count .dump = 1
  length_eq_two : tokens.length = 2

instance (tokens : List Token) : Decidable (FitsRun tokens) :=
  decidable_of_iff ((Token.operands tokens).length = 1 ∧ (Token.budgets tokens).length ≤ 1 ∧
    tokens.count .keepOutput ≤ 1 ∧ .dump ∉ tokens ∧ .help ∉ tokens)
    ⟨fun ⟨h₁, h₂, h₃, h₄, h₅⟩ => ⟨h₁, h₂, h₃, h₄, h₅⟩, fun ⟨h₁, h₂, h₃, h₄, h₅⟩ =>
      ⟨h₁, h₂, h₃, h₄, h₅⟩⟩

instance (tokens : List Token) : Decidable (FitsDump tokens) :=
  decidable_of_iff ((Token.operands tokens).length = 1 ∧ tokens.count .dump = 1 ∧
    tokens.length = 2) ⟨fun ⟨h₁, h₂, h₃⟩ => ⟨h₁, h₂, h₃⟩, fun ⟨h₁, h₂, h₃⟩ => ⟨h₁, h₂, h₃⟩⟩

/-- The budget that a text gives. A blank text gives none at all, that is zero; any other has to
be a numeral below 2^64. -/
def budget? (text : String) : Option UInt64 :=
  if text.toList.all Text.isBlank then some 0
  else Text.wordNumeral? text.toList

/-- The values that tokens give, if the usage lists them and they do not ask for help. -/
def valuesOf (tokens : List Token) : Except Refusal Values :=
  if tokens = [.help] then .error .help
  else if FitsRun tokens ∨ FitsDump tokens then .ok (.ofTokens tokens)
  else .error (.usage .noForm)

/-- Values with their types: the text of a budget has to be read. -/
def argsOf (values : Values) : Except Refusal Args :=
  match values.budget with
  | none => .ok ⟨values.program, values.dump, none, values.keepOutput⟩
  | some text =>
    match budget? text with
    | some budget => .ok ⟨values.program, values.dump, some budget, values.keepOutput⟩
    | none => .error (.unreadableBudget text)

def usageReader : ArgumentReader Refusal where
  parse arguments :=
    match scan arguments with
    | .ok tokens => valuesOf tokens
    | .error error => .error (.usage error)
  deserialize := argsOf
  isFatal := Refusal.isFatal
  text := Refusal.text
  exit := Refusal.exit

end TapeMachine.Command
