/-
The status contract: what a gate report must look like when the receiver takes it, and which jobs
kept the gate closed according to it.
-/
import MergeGate.Run.Report
import MergeGate.Schema.Basic
import MergeGate.Text.Utf8

namespace MergeGate.Receiver

open Schema

/-- One job's outcome as reported. -/
structure Definition where
  id : String
  status : Status
  critical : Bool
  reason : Option String := none
  allowedFailures : Int := 0
  deriving DecidableEq, Repr

/-- A report as the receiver takes it. -/
structure StatusReport where
  runId : String
  overall : Status
  definitions : List Definition
  workflow : String := "workflow"
  triggered : Bool := true
  cancelled : List String := []
  cancelTimeouts : List String := []
  context : List (String × Value) := []

/-- A status out of the given words. -/
def statusOf (words : List String) : Checker Status := fun v => (oneOf words v).map .ofWord

/-- One job's outcome. -/
def definition : Checker Definition := fun v => do
  let es ← record "DefinitionStatus" v
  let d := (required "id" text es).map Definition.mk
  let d := both d (required "status" (statusOf ["succeeded", "failed", "skipped"]) es)
  let d := both d (required "critical" bool es)
  let d := both d (defaulted "reason" none (optional text) es)
  both d (defaulted "allowed_failures" 0 int es)

/-- A whole report. -/
def report : Checker StatusReport := fun v => do
  let es ← record "GateStatusReport" v
  let r := (required "run_id" someText es).map StatusReport.mk
  let r := both r (required "overall" (statusOf ["succeeded", "failed"]) es)
  let r := both r (required "definitions" (list definition) es)
  let r := both r (defaulted "workflow" "workflow" text es)
  let r := both r (defaulted "triggered" true bool es)
  let r := both r (defaulted "cancelled" [] (list text) es)
  let r := both r (defaulted "cancel_timeouts" [] (list text) es)
  both r (defaulted "context" [] (map anything) es)

/-- Did the job keep the gate closed? -/
def Definition.blocks (d : Definition) : Bool :=
  d.critical && d.status != .succeeded && !(d.status == .skipped && Reason.isAbsence d.reason)

namespace StatusReport

/-- The critical jobs that kept the gate closed. -/
def blocking (r : StatusReport) : List String := (r.definitions.filter (·.blocks)).map (·.id)

/-- One job's outcome in the written form. -/
def definitionValue (d : Definition) : Value :=
  .ofFields [("id", .text d.id), ("status", .text d.status.word), ("critical", .bool d.critical),
    ("reason", .ofText? d.reason), ("allowed_failures", .int d.allowedFailures)]

/-- Bytes as a text. -/
def textOfBytes (bs : List UInt8) : Except Text.Undecodable String :=
  (Text.decode bs).map String.ofList

mutual

/-- The text of a key. A tuple gives the texts of its items, with commas between them. -/
def keyText : Value → Except Text.Undecodable String
  | .bool b => .ok (if b then "true" else "false")
  | .bytes bs => textOfBytes bs
  | .tuple items => (keyTexts items).map (",".intercalate ·)
  | v => .ok v.plain

/-- The texts of keys. -/
def keyTexts : List Value → Except Text.Undecodable (List String)
  | [] => .ok []
  | k :: rest => do
    let t ← keyText k
    let more ← keyTexts rest
    return t :: more

end

mutual

/-- A value as a JSON document holds it: sequences are lists, keys are texts, and what is no number
or no finite one is null. -/
def plainValue : Value → Except Text.Undecodable Value
  | .list items => (plainValues items).map .list
  | .tuple items => (plainValues items).map .list
  | .map es => (plainEntries es).map fun es => .map (Value.joinEntries es)
  | .date y m d => .ok (.text (Value.plain (.date y m d)))
  | .bytes bs => (textOfBytes bs).map .text
  | .float x => .ok (if x.isNaN || x.isInf then .null else .float x)
  | v => .ok v

/-- Items as a JSON document holds them. -/
def plainValues : List Value → Except Text.Undecodable (List Value)
  | [] => .ok []
  | v :: rest => do
    let v ← plainValue v
    let more ← plainValues rest
    return v :: more

/-- Entries as a JSON document holds them. -/
def plainEntries : List (Value × Value) → Except Text.Undecodable (List (Value × Value))
  | [] => .ok []
  | (k, v) :: rest => do
    let k ← keyText k
    let v ← plainValue v
    let more ← plainEntries rest
    return (.text k, v) :: more

end

/-- The values of fields as a JSON document holds them. -/
def plainFields : Assoc Value → Except Text.Undecodable (Assoc Value)
  | [] => .ok []
  | (k, v) :: rest => do
    let v ← plainValue v
    let more ← plainFields rest
    return (k, v) :: more

/-- The written form of a report with the given context. -/
def withContext (r : StatusReport) (context : Assoc Value) : Value :=
  .ofFields [("run_id", .text r.runId), ("overall", .text r.overall.word),
    ("definitions", .list (r.definitions.map definitionValue)), ("workflow", .text r.workflow),
    ("triggered", .bool r.triggered), ("cancelled", .texts r.cancelled),
    ("cancel_timeouts", .texts r.cancelTimeouts), ("context", .ofFields context)]

/-- The written form of a report. It has none if its context holds bytes that are no text. -/
def toValue (r : StatusReport) : Except Text.Undecodable Value :=
  (plainFields r.context).map r.withContext

end StatusReport

end MergeGate.Receiver
