/-
The gate report: the one signal that a finished run gives, and its written form, which the status
receiver reads.
-/
import MergeGate.Json
import MergeGate.Run.Outcome

namespace MergeGate

/-- What a finished run reports. -/
structure GateReport where
  runId : String
  workflow : String
  overall : Status
  definitions : List Outcome
  cancelled : List String
  cancelTimeouts : List String
  context : List (String × String)
  triggered : Bool := true
  deriving DecidableEq, Repr

namespace GateReport

/-- Did the gate open? -/
def passed (r : GateReport) : Bool := r.overall != .failed

/-- One job's outcome in the written form. -/
def definitionValue (o : Outcome) : Value :=
  .ofFields [("id", .text o.id), ("status", .text o.status.word), ("critical", .bool o.critical),
    ("reason", .ofText? o.reason), ("allowed_failures", .int o.allowedFailures)]

/-- The written form as a value. -/
def toValue (r : GateReport) : Value :=
  .ofFields [("run_id", .text r.runId), ("overall", .text r.overall.word),
    ("definitions", .list (r.definitions.map definitionValue)), ("workflow", .text r.workflow),
    ("triggered", .bool r.triggered), ("cancelled", .texts r.cancelled),
    ("cancel_timeouts", .texts r.cancelTimeouts),
    ("context", .ofFields (r.context.map fun c => (c.1, .text c.2)))]

/-- The written form on one line. -/
def toJson (r : GateReport) : String := Json.compact r.toValue

end GateReport

end MergeGate
