import MergeGate.Assoc
import MergeGate.Checkout
import MergeGate.CommandLine.Discovery
import MergeGate.CommandLine.Help
import MergeGate.CommandLine.Invocation
import MergeGate.CommandLine.Parameter
import MergeGate.CommandLine.Program
import MergeGate.CommandLine.Suggestion
import MergeGate.Condition.Basic
import MergeGate.Condition.Expression
import MergeGate.Condition.Token
import MergeGate.Console
import MergeGate.Decimal.Fixed
import MergeGate.Decimal.Read
import MergeGate.Decimal.Shortest
import MergeGate.Declare
import MergeGate.Delivery.Address
import MergeGate.Delivery.Basic
import MergeGate.Delivery.Exchange
import MergeGate.Delivery.Host
import MergeGate.Delivery.Reporter
import MergeGate.Document.Shape
import MergeGate.Document.Workflow
import MergeGate.Document.Yaml
import MergeGate.Executor.Basic
import MergeGate.Executor.Shell
import MergeGate.Folder.Basic
import MergeGate.Folder.Path
import MergeGate.Glob
import MergeGate.Graph.Build
import MergeGate.Graph.Staging
import MergeGate.Json
import MergeGate.Json.Read
import MergeGate.Main
import MergeGate.Matrix.Check
import MergeGate.Matrix.Expand
import MergeGate.Matrix.Placeholder
import MergeGate.Plan
import MergeGate.Proofs.Assoc
import MergeGate.Proofs.Basic
import MergeGate.Proofs.CommandLine.Discovery
import MergeGate.Proofs.CommandLine.ExitCode
import MergeGate.Proofs.CommandLine.Limits
import MergeGate.Proofs.Condition.Evaluation
import MergeGate.Proofs.Condition.Flaw
import MergeGate.Proofs.Condition.Grammar
import MergeGate.Proofs.Condition.Layout
import MergeGate.Proofs.Condition.Meaning
import MergeGate.Proofs.Condition.Parser
import MergeGate.Proofs.Condition.Refusal
import MergeGate.Proofs.Condition.Scanner
import MergeGate.Proofs.Delivery.Attempts
import MergeGate.Proofs.Delivery.Exchange
import MergeGate.Proofs.Delivery.Retries
import MergeGate.Proofs.Delivery.Transport
import MergeGate.Proofs.Document.Gate
import MergeGate.Proofs.Document.Reading
import MergeGate.Proofs.Document.Refusal
import MergeGate.Proofs.Executor.Cancellation
import MergeGate.Proofs.Executor.Moves
import MergeGate.Proofs.Executor.Result
import MergeGate.Proofs.Executor.Standing
import MergeGate.Proofs.Folding
import MergeGate.Proofs.Glob
import MergeGate.Proofs.Graph
import MergeGate.Proofs.Graph.Acceptance
import MergeGate.Proofs.Graph.Cycles
import MergeGate.Proofs.Graph.Rounds
import MergeGate.Proofs.InstanceId
import MergeGate.Proofs.Loading
import MergeGate.Proofs.Matrix
import MergeGate.Proofs.Matrix.Axis
import MergeGate.Proofs.Matrix.Enumeration
import MergeGate.Proofs.Matrix.Placeholder
import MergeGate.Proofs.Matrix.Variables
import MergeGate.Proofs.Outcome
import MergeGate.Proofs.Plan
import MergeGate.Proofs.Plan.Partition
import MergeGate.Proofs.Receiver.Agreement
import MergeGate.Proofs.Receiver.Breakdown
import MergeGate.Proofs.Receiver.Document
import MergeGate.Proofs.Receiver.Event
import MergeGate.Proofs.Receiver.History
import MergeGate.Proofs.Receiver.Interleaving
import MergeGate.Proofs.Receiver.Ordered
import MergeGate.Proofs.Receiver.Payload
import MergeGate.Proofs.Receiver.Report
import MergeGate.Proofs.Receiver.Rush
import MergeGate.Proofs.Receiver.Store
import MergeGate.Proofs.Refusal
import MergeGate.Proofs.Run
import MergeGate.Proofs.Run.Calls
import MergeGate.Proofs.Schedule.Cancellation
import MergeGate.Proofs.Schedule.Comparison
import MergeGate.Proofs.Schedule.Confluence
import MergeGate.Proofs.Schedule.Gate
import MergeGate.Proofs.Schedule.Improvement
import MergeGate.Proofs.Schedule.Invariant
import MergeGate.Proofs.Schedule.Locality
import MergeGate.Proofs.Schedule.Moves
import MergeGate.Proofs.Schedule.Needs
import MergeGate.Proofs.Schedule.Order
import MergeGate.Proofs.Schedule.Priority
import MergeGate.Proofs.Schedule.Progress
import MergeGate.Proofs.Schedule.Promotion
import MergeGate.Proofs.Schedule.Safety
import MergeGate.Proofs.Schedule.Serial
import MergeGate.Proofs.Schedule.Settled
import MergeGate.Proofs.Schedule.Signals
import MergeGate.Proofs.Schedule.Steps
import MergeGate.Proofs.Schedule.Upkeep
import MergeGate.Proofs.Schema
import MergeGate.Proofs.Schema.Reading
import MergeGate.Proofs.Text.Utf8
import MergeGate.Proofs.WorkflowFile
import MergeGate.Receiver.Contract
import MergeGate.Receiver.Event
import MergeGate.Receiver.Store
import MergeGate.Receiver.Task
import MergeGate.Rejection
import MergeGate.Run.Basic
import MergeGate.Run.Outcome
import MergeGate.Run.Report
import MergeGate.Run.Result
import MergeGate.Schedule.Basic
import MergeGate.Schedule.Execute
import MergeGate.Schedule.Rehearsal
import MergeGate.Schema.Basic
import MergeGate.Settings
import MergeGate.Shell.Arithmetic
import MergeGate.Shell.Builtin
import MergeGate.Shell.Bytes
import MergeGate.Shell.Expansion
import MergeGate.Shell.Fields
import MergeGate.Shell.Format
import MergeGate.Shell.Number
import MergeGate.Shell.Parser
import MergeGate.Shell.Pattern
import MergeGate.Shell.Question
import MergeGate.Shell.Quotation
import MergeGate.Shell.Run
import MergeGate.Shell.Script
import MergeGate.Shell.Signal
import MergeGate.Shell.Stream
import MergeGate.Shell.System
import MergeGate.Shell.Token
import MergeGate.Shell.Tree
import MergeGate.Shell.Utility
import MergeGate.Text.Blank
import MergeGate.Text.Capital
import MergeGate.Text.Digit
import MergeGate.Text.Printable
import MergeGate.Text.Quoted
import MergeGate.Text.Small
import MergeGate.Text.Utf8
import MergeGate.Trigger
import MergeGate.Value.Basic
import MergeGate.Value.Text
import MergeGate.Workflow
import MergeGate.WorkflowFile
import MergeGate.Yaml.Build
import MergeGate.Yaml.Cursor
import MergeGate.Yaml.Node
import MergeGate.Yaml.Resolve
import MergeGate.Yaml.Scalar
import MergeGate.Yaml.Scan
import MergeGate.Yaml.Token
