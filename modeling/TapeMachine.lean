import TapeMachine.Instr
import TapeMachine.Fault
import TapeMachine.Brackets.Pairing
import TapeMachine.Brackets.Search
import TapeMachine.Brackets.Depth
import TapeMachine.Program.Basic
import TapeMachine.Program.Listing
import TapeMachine.Tape
import TapeMachine.Machine.State
import TapeMachine.Machine.Run
import TapeMachine.Structured
import TapeMachine.Log.Level
import TapeMachine.Log.Record
import TapeMachine.Log.Subscriber
import TapeMachine.Log.Directive
import TapeMachine.Log.Setting
import TapeMachine.Log.Line
import TapeMachine.Text.Utf8
import TapeMachine.Text.Alphanumeric
import TapeMachine.Text.Numeral
import TapeMachine.Text.Pattern
import TapeMachine.Text.Split
import TapeMachine.Command.Usage
import TapeMachine.Command.Reader
import TapeMachine.Command.Loading
import TapeMachine.Command.Directory
import TapeMachine.Command.Response
import TapeMachine.Command.Scan
import TapeMachine.Main
import TapeMachine.Proofs.Height
import TapeMachine.Proofs.Pairing
import TapeMachine.Proofs.Partners
import TapeMachine.Proofs.Move
import TapeMachine.Proofs.Safety
import TapeMachine.Proofs.Validation
import TapeMachine.Proofs.Flattening
import TapeMachine.Proofs.Evaluation
import TapeMachine.Proofs.Budget
import TapeMachine.Proofs.Enclosure
import TapeMachine.Proofs.Account
import TapeMachine.Proofs.Ledger
import TapeMachine.Proofs.Append
import TapeMachine.Proofs.Composition
import TapeMachine.Proofs.Counter
import TapeMachine.Proofs.DeadLoop
import TapeMachine.Proofs.Address
import TapeMachine.Proofs.Listing
import TapeMachine.Proofs.Symbols
import TapeMachine.Proofs.Scan
import TapeMachine.Proofs.Loading
import TapeMachine.Proofs.Exit
import TapeMachine.Proofs.Repair
import TapeMachine.Proofs.LoopRule
import TapeMachine.Proofs.TapeUse
import TapeMachine.Proofs.Setting
import TapeMachine.Proofs.Logging
import TapeMachine.Proofs.Grammar
import TapeMachine.Proofs.UsageForm
