import TapeMachine.Machine.Run

/-!
# The command's usage

The command has flags and one operand. Its usage is a list of patterns, which say what may stand in
a command line; the texts that explain the command are made of them.
-/

namespace TapeMachine.Command

inductive Flag where
  | budget
  | dump
  | help
  | keepOutput
  deriving DecidableEq

namespace Flag

/-- Every flag, in the order in which near misses are looked for. -/
def all : List Flag := [budget, dump, help, keepOutput]

def long : Flag → String
  | budget => "--budget"
  | dump => "--dump"
  | help => "--help"
  | keepOutput => "--partial"

/-- The flag that is written out as `name`. -/
def ofLong? (name : String) : Option Flag := all.find? fun flag => flag.long == name

def ofLetter? : Char → Option Flag
  | 'h' => some help
  | _ => none

end Flag

/-- What an argument, or a flag with the argument that is its value, stands for. -/
inductive Token where
  | budget (value : String)
  | dump
  | help
  | keepOutput
  | operand (text : String)
  deriving DecidableEq

namespace Token

def flag? : Token → Option Flag
  | budget _ => some .budget
  | dump => some .dump
  | help => some .help
  | keepOutput => some .keepOutput
  | operand _ => none

def operands (tokens : List Token) : List String :=
  tokens.filterMap fun
    | operand text => some text
    | _ => none

def budgets (tokens : List Token) : List String :=
  tokens.filterMap fun
    | budget value => some value
    | _ => none

end Token

/-- What may stand in a command line. -/
inductive Pattern where
  | operand (name : String)
  | flag (flag : Flag) (written : String)
  | optional (p : Pattern)
  | both (p q : Pattern)
  | either (p q : Pattern)

def Pattern.shown : Pattern → String
  | operand name => "<" ++ name ++ ">"
  | flag _ written => written
  | optional p => "[" ++ p.shown ++ "]"
  | both p q => p.shown ++ " " ++ q.shown
  | either p q => "(" ++ p.shown ++ " | " ++ q.shown ++ ")"

namespace Usage

def toRun : Pattern :=
  .both (.optional (.flag .budget "--budget=<steps>"))
    (.both (.optional (.flag .keepOutput "--partial")) (.operand "program"))

def toDump : Pattern := .both (.flag .dump "--dump") (.operand "program")

def toHelp : Pattern := .either (.flag .help "-h") (.flag .help "--help")

/-- What the command can be used for. -/
def patterns : List Pattern := [toRun, toDump, toHelp]

def forms : String :=
  "Usage:\n" ++ "\n".intercalate (patterns.map fun p => "  tapevm " ++ p.shown)

/-- The value that a budget has if none is given. -/
def budgetDefault : String := "100000000"

def text : String :=
  "Tapevm\n\n" ++ forms ++ "\n\n" ++
  "Options:\n" ++
  "  -h --help          Show this screen.\n" ++
  "  --dump             Display the decoded instruction listing.\n" ++
  "  --budget=<steps>   Maximum number of instructions to execute [default: " ++ budgetDefault ++
    "].\n" ++
  "  --partial          Print the output produced so far when the budget runs out."

example : forms =
    "Usage:\n" ++
    "  tapevm [--budget=<steps>] [--partial] <program>\n" ++
    "  tapevm --dump <program>\n" ++
    "  tapevm (-h | --help)" := by
  decide

end Usage

end TapeMachine.Command
