import TapeMachine.Command.Usage

/-!
# Readers of arguments

Arguments are read in two stages. First each name in the usage gets its value, as far as the
arguments are what the usage allows; then the values get their types. A reader does both, and says
how the program ends if it refuses. It is a parameter of the command: nothing here is known of how
it reads.
-/

namespace TapeMachine.Command

/-- The values of the names in the usage. A budget that is not given may still have a value. -/
structure Values where
  program : String
  dump : Bool
  budget : Option String
  keepOutput : Bool
  deriving DecidableEq

/-- The values that the tokens of a command line give. -/
def Values.ofTokens (tokens : List Token) : Values where
  program := (Token.operands tokens).headD ""
  dump := tokens.contains .dump
  budget := some ((Token.budgets tokens).headD Usage.budgetDefault)
  keepOutput := tokens.contains .keepOutput

/-- Values with their types. -/
structure Args where
  program : String
  dump : Bool
  budget : Option UInt64
  keepOutput : Bool
  deriving DecidableEq

/-- The budget of a run, which need not be given. -/
def Args.grantedBudget (args : Args) : UInt64 := args.budget.getD defaultBudget

/-- How a program ends whose arguments are refused. -/
structure Exit where
  status : UInt32
  output : Array UInt8 := #[]
  message : String := ""
  deriving DecidableEq

/-- What reads arguments. The type is that of the reasons to refuse them. -/
structure ArgumentReader (ε : Type) where
  parse : List String → Except ε Values
  deserialize : Values → Except ε Args
  /-- Whether something is wrong with the arguments. If not, they ask for a text. -/
  isFatal : ε → Bool
  text : ε → String
  exit : ε → Exit

variable {ε : Type}

def ArgumentReader.read (reader : ArgumentReader ε) (arguments : List String) : Except ε Args := do
  reader.deserialize (← reader.parse arguments)

end TapeMachine.Command
