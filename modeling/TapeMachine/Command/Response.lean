import TapeMachine.Command.Loading
import TapeMachine.Command.Reader
import TapeMachine.Program.Listing

/-!
# Answering a command line

A command line is answered with an exit status, bytes for the standard output and a text for the
standard error. That text is the log of the run, if there was one, followed by a message of the
command. How arguments are read, what a path leads to and how a log is shown are parameters;
`respondWith` reads the program in whatever monad there is to read it, and `respond` where it is
known beforehand what there is to read.
-/

namespace TapeMachine.Command

/-- An answer: what is written to the standard output, and what is seen of the run besides. -/
structure Response where
  status : UInt32
  output : Array UInt8 := #[]
  report : Option Report := none
  message : String := ""

/-- What keeps output from its reader. -/
inductive DeliveryError where
  | cannotWrite (cause : SystemError)
  | cannotFlush (cause : SystemError)
  deriving DecidableEq

namespace DeliveryError

def cause : DeliveryError → SystemError
  | cannotWrite cause => cause
  | cannotFlush cause => cause

def message : DeliveryError → String
  | cannotWrite cause => "Failed to write program output: " ++ cause.message
  | cannotFlush cause => "Failed to flush program output: " ++ cause.message

end DeliveryError

namespace Response

/-- The text for the standard error: the log, and the message behind it. -/
def errorText (log : Report → String) (r : Response) : String := r.report.elim "" log ++ r.message

def ofText (text : String) : Response := { status := 0, output := text.toUTF8.data }

def failure (message : String) : Response := { status := 1, message }

def ofExit (exit : Exit) : Response :=
  { status := exit.status, output := exit.output, message := exit.message }

def ofLoadError (error : LoadError) : Response :=
  failure ("Error occurred while loading program: " ++ error.message ++ "\n")

/-- The answer when the program has been run, or could not be. -/
def ofReport (report : Report) : Response :=
  match report.result with
  | .ok (.completed output _) => { status := 0, output, report := some report }
  | .ok (.timedOut output _) =>
    let budget := toString report.span.budget.toNat
    { status := 2
      output
      report := some report
      message := "Program exceeded its budget of " ++ budget ++ " instructions\n" }
  | .error (.refused error) =>
    { status := 1
      report := some report
      message := "Error occurred while running program: " ++ error.message ++ "\n" }
  | .error (.broken fault) =>
    { status := 101
      report := some report
      message := fault.message ++ "\n" }

/-- The answer instead of one whose output could not be delivered. That is an error of a run; to
print any other text is a promise, which is then broken. -/
def undelivered (error : DeliveryError) (r : Response) : Response :=
  match r.report with
  | some report =>
    { status := 1
      report := some report
      message := "Error occurred while running program: " ++ error.message ++ "\n" }
  | none =>
    { status := 101
      message := "failed printing to stdout: " ++ error.cause.message ++ "\n" }

/-- Write the output of an answer, if there is any. -/
def deliver {m : Type → Type} [Monad m] (write : Array UInt8 → m (Except DeliveryError Unit))
    (r : Response) : m Response := do
  if r.output.isEmpty then return r
  else
    match ← write r.output with
    | .ok () => return r
    | .error error => return r.undelivered error

end Response

/-- The answer when the arguments have been read and the program has been loaded. -/
def Args.answer (args : Args) (program : Program) : Response :=
  if args.dump then .ofText (program.listing ++ "\n")
  else .ofReport (run ⟨args.keepOutput⟩ program args.grantedBudget)

/-- Load the program and answer. -/
def Args.respondWith {m : Type → Type} [Monad m] (args : Args)
    (load : String → m (Except LoadError (Array UInt8))) : m Response := do
  match ← load args.program with
  | .ok bytes => return args.answer (programOfBytes bytes)
  | .error error => return .ofLoadError error

variable {ε : Type}

/-- Answer a command line. Nothing is loaded if the arguments are refused. -/
def respondWith {m : Type → Type} [Monad m] (reader : ArgumentReader ε)
    (load : String → m (Except LoadError (Array UInt8))) (arguments : List String) : m Response :=
  match reader.read arguments with
  | .ok args => args.respondWith load
  | .error refusal => return .ofExit (reader.exit refusal)

/-- The answer to a command line where it is known what loading a program gives. -/
def respond (reader : ArgumentReader ε) (load : String → Except LoadError (Array UInt8))
    (arguments : List String) : Response :=
  Id.run (respondWith reader (fun path => pure (load path)) arguments)

section Laws

variable {reader : ArgumentReader ε} {arguments : List String} {args : Args}
  {load : String → Except LoadError (Array UInt8)}

theorem respond_of_loaded {bytes : Array UInt8} (h : reader.read arguments = .ok args)
    (hload : load args.program = .ok bytes) :
    respond reader load arguments = args.answer (programOfBytes bytes) := by
  simp [respond, respondWith, Args.respondWith, h, hload]

theorem respond_of_loadError {error : LoadError} (h : reader.read arguments = .ok args)
    (hload : load args.program = .error error) :
    respond reader load arguments = .ofLoadError error := by
  simp [respond, respondWith, Args.respondWith, h, hload]

theorem respond_of_refused {refusal : ε} (h : reader.read arguments = .error refusal)
    (load : String → Except LoadError (Array UInt8)) :
    respond reader load arguments = .ofExit (reader.exit refusal) := by
  simp [respond, respondWith, h]

/-- In every monad the answer is the one that `respond` gives for what loading gave. -/
theorem respondWith_eq {m : Type → Type} [Monad m] [LawfulMonad m] (reader : ArgumentReader ε)
    (load : String → m (Except LoadError (Array UInt8))) (arguments : List String) :
    respondWith reader load arguments =
      match reader.read arguments with
      | .ok args => (fun loaded => respond reader (fun _ => loaded) arguments) <$> load args.program
      | .error refusal => pure (.ofExit (reader.exit refusal)) := by
  cases h : reader.read arguments with
  | error refusal => simp [respondWith, h]
  | ok args =>
    simp only [respondWith, h, Args.respondWith]
    rw [map_eq_pure_bind]
    congr 1
    funext loaded
    cases loaded with
    | ok bytes => exact congrArg pure (respond_of_loaded h rfl).symm
    | error error => exact congrArg pure (respond_of_loadError h rfl).symm

end Laws

end TapeMachine.Command
